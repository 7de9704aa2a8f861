import Songline.Proofs.Passages

set_option autoImplicit false

namespace Songline

namespace Grammar

theorem colon_not_mem_members {tokens : List Token} {members : List ChordMember}
    (derivation : Members tokens members) : Token.colon ∉ tokens := by
  induction derivation with
  | one member => cases member <;> simp
  | more _ member ih => cases member <;> simp [ih]

theorem colon_not_mem_repeated {tokens event : List Token} {form whole : Form}
    (repeated : Repeated tokens form event whole) (before : Token.colon ∉ tokens) :
    Token.colon ∉ event := by
  cases repeated with
  | once => exact before
  | times n => simp [before]

mutual

theorem colon_not_mem_event {tokens : List Token} {form : Form} :
    Event tokens form → Token.colon ∉ tokens
  | .notes derivation repeated => by
      obtain ⟨_, members, -⟩ := members_of_notes derivation
      exact colon_not_mem_repeated repeated (colon_not_mem_members members)
  | .octave _ | .octaveUp | .octaveDown | .voice _ => by simp
  | .setting derivation => by cases derivation <;> simp
  | .sequence items repeated => by
      have inner := colon_not_mem_items items
      exact colon_not_mem_repeated repeated (by simp [inner])

/-- There is no colon between the events of a text either. -/
theorem colon_not_mem_items {tokens : List Token} {forms : List Form} :
    Items tokens forms → Token.colon ∉ tokens
  | .none => List.not_mem_nil
  | .barline items => by
      have before := colon_not_mem_items items
      simp [before]
  | .event items derivation => by
      have before := colon_not_mem_items items
      have last := colon_not_mem_event derivation
      simp [before, last]

end

theorem colon_mem_part {tokens : List Token} {forms : List Form} (derivation : Part tokens forms) :
    Token.colon ∈ tokens := by
  cases derivation with
  | declared declaration items => cases declaration <;> simp

theorem colon_mem_parts {tokens : List Token} {forms : List Form}
    (derivation : Parts tokens forms) : Token.colon ∈ tokens := by
  cases derivation with
  | one part => exact colon_mem_part part
  | more parts part => exact List.mem_append_right _ (colon_mem_part part)

/-- Every part and every score has a colon, and no music data has one. -/
theorem colon_mem_of_derives {entry : Entry} {tokens : List Token} {forms : List Form}
    (derivation : Derives entry tokens forms) : Token.colon ∈ tokens ↔ entry ≠ .musicData := by
  cases derivation with
  | musicData items music => simp [colon_not_mem_items items]
  | part part => simp [colon_mem_part part]
  | score attributes parts => simp [colon_mem_parts parts]

/-- No part declaration stands among some forms. -/
def Undivided (forms : List Form) : Prop := ∀ decl, Form.part decl ∉ forms

theorem undivided_of_admits {forms : List Form}
    (none : Form.AdmitsAll (fun _ => False) forms) : Undivided forms := by
  induction forms with
  | nil => exact fun decl => List.not_mem_nil
  | cons form forms ih =>
      obtain ⟨first, rest⟩ := none
      intro decl member
      rcases List.mem_cons.mp member with rfl | later
      · exact first
      · exact ih rest decl later

/-- A part is declared once, at its beginning. -/
theorem part_declares {tokens : List Token} {forms : List Form} (derivation : Part tokens forms) :
    ∃ decl rest, forms = .part decl :: rest ∧ Undivided rest := by
  cases derivation with
  | declared declaration items =>
      exact ⟨_, _, rfl, undivided_of_admits (admitsAll_items items)⟩

theorem part_of_parts {tokens : List Token} {decl : PartDecl} {rest : List Form}
    (derivation : Parts tokens (.part decl :: rest)) (single : Undivided rest) :
    Part tokens (.part decl :: rest) := by
  generalize same : Form.part decl :: rest = forms at derivation
  cases derivation with
  | one part => exact part
  | more parts part =>
      -- a second part would bring a second declaration
      obtain ⟨first, others, rfl, -⟩ := parts_cases parts
      obtain ⟨second, further, rfl, -⟩ := part_declares part
      obtain ⟨-, tail⟩ := List.cons.inj same
      refine absurd ?_ (single second)
      rw [tail]
      exact List.mem_append_right _ List.mem_cons_self

/-- Settings that stand first are forms that come first. -/
theorem attributes_of_declared {tokens : List Token} {forms further rest : List Form}
    {decl : PartDecl} (derivation : Attributes tokens forms)
    (declared : forms ++ further = .part decl :: rest) : tokens = [] ∧ forms = [] := by
  induction derivation generalizing further with
  | none => exact ⟨rfl, rfl⟩
  | more before setting ih =>
      rw [List.append_assoc] at declared
      obtain ⟨-, rfl⟩ := ih declared
      rw [List.nil_append, List.singleton_append] at declared
      cases declared

/-- A part is a score that begins with its only declaration. -/
theorem derives_part_iff {tokens : List Token} {forms : List Form} :
    Derives .part tokens forms ↔
      Derives .score tokens forms ∧ ∃ decl rest, forms = .part decl :: rest ∧ Undivided rest := by
  constructor
  · intro derivation
    cases derivation with
    | part part => exact ⟨.score .none (.one part), part_declares part⟩
  · rintro ⟨derivation, decl, rest, declared, single⟩
    cases derivation with
    | @score settings tokens forms further attributes parts =>
        obtain ⟨rfl, rfl⟩ := attributes_of_declared attributes declared
        rw [List.nil_append] at declared ⊢
        subst declared
        exact .part (part_of_parts parts single)

end Grammar

namespace Entry

open Grammar

/-- What a text reads as is music data always or never. -/
theorem musicData_iff_of_read {entry other : Entry} {text : String} {forms others : List Form}
    (first : entry.read text = .ok forms) (second : other.read text = .ok others) :
    entry = .musicData ↔ other = .musicData := by
  obtain ⟨line, spelt, derivation⟩ := (read_eq_ok_iff entry text forms).mp first
  obtain ⟨again, same, derivation'⟩ := (read_eq_ok_iff other text others).mp second
  rw [spelt] at same
  cases same
  have colon := (colon_mem_of_derives derivation).symm.trans (colon_mem_of_derives derivation')
  exact Decidable.not_iff_not.mp colon

/-- A text that reads as music data reads as nothing else. A part reads as a score with the same
forms, and a score that begins with its only declaration as a part. -/
theorem readings_of_text (text : String) :
    ((∃ forms, musicData.read text = .ok forms) →
      (¬ ∃ forms, part.read text = .ok forms) ∧ ¬ ∃ forms, score.read text = .ok forms) ∧
    (∀ forms, part.read text = .ok forms → score.read text = .ok forms) ∧
    ∀ decl rest, score.read text = .ok (.part decl :: rest) →
      (∀ other, Form.part other ∉ rest) → part.read text = .ok (.part decl :: rest) := by
  refine ⟨?_, ?_, ?_⟩
  · rintro ⟨forms, music⟩
    constructor
    · rintro ⟨others, read⟩
      cases (musicData_iff_of_read music read).mp rfl
    · rintro ⟨others, read⟩
      cases (musicData_iff_of_read music read).mp rfl
  · intro forms read
    obtain ⟨line, spelt, derivation⟩ := (read_eq_ok_iff part text forms).mp read
    have whole := (derives_part_iff.mp derivation).1
    exact (read_eq_ok_iff score text forms).mpr ⟨line, spelt, whole⟩
  · intro decl rest read single
    obtain ⟨line, spelt, derivation⟩ := (read_eq_ok_iff score text _).mp read
    have alone := derives_part_iff.mpr ⟨derivation, decl, rest, rfl, single⟩
    exact (read_eq_ok_iff part text _).mpr ⟨line, spelt, alone⟩

theorem readings_of_melody :
    (∃ forms, musicData.read "c | [d e]*2" = .ok forms) ∧
      (¬ ∃ forms, part.read "c | [d e]*2" = .ok forms) ∧
      (¬ ∃ forms, score.read "c | [d e]*2" = .ok forms) ∧
      ∃ decl rest, score.read "piano: c | [d e]*2" = .ok (.part decl :: rest) ∧
        (∀ other, Form.part other ∉ rest) ∧
        part.read "piano: c | [d e]*2" = .ok (.part decl :: rest) := by
  have accepted : (musicData.read "c | [d e]*2").toOption.isSome = true := by
    decide +kernel
  have opened : (part.read "piano: c | [d e]*2").toOption.isSome = true := by
    decide +kernel
  have music : ∃ forms, musicData.read "c | [d e]*2" = .ok forms :=
    ⟨_, Draft.ok_getD accepted []⟩
  obtain ⟨notPart, notScore⟩ := (readings_of_text _).1 music
  have read := Draft.ok_getD opened []
  obtain ⟨line, -, derivation⟩ := (read_eq_ok_iff part _ _).mp read
  obtain ⟨-, decl, rest, declared, single⟩ := derives_part_iff.mp derivation
  rw [declared] at read
  have asScore := (readings_of_text _).2.1 _ read
  exact ⟨music, notPart, notScore, decl, rest, asScore, single,
    (readings_of_text _).2.2 decl rest asScore single⟩

end Entry

end Songline
