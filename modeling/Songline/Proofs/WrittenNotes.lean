import Songline.Proofs.CheckedWords
import Songline.Proofs.GrammarSound

set_option autoImplicit false

namespace Songline

namespace TokenLine

/-- Every token of a line is that of a lexeme, which is a part of the text. There are no more tokens
than characters. -/
theorem tokens_ofCharsAt {p : Position} {cs : List Char} {line : TokenLine}
    (spelt : ofCharsAt p cs = .ok line) :
    line.tokens.length ≤ cs.length ∧
      ∀ t ∈ line.tokens, ∃ c rest x, Lexeme.ofChars c rest = .ok x ∧ x.token = t.token ∧
        rest.length < cs.length := by
  induction size : cs.length using Nat.strongRecOn generalizing p cs line with
  | ind n ih =>
      rw [ofCharsAt] at spelt
      split at spelt
      · cases spelt
        exact ⟨Nat.zero_le _, List.forall_mem_nil _⟩
      · rename_i c tail left
        have bound := length_gap_le false cs
        rw [left, List.length_cons] at bound
        split at spelt
        · cases spelt
        · rename_i x lexed
          have taken := Lexeme.length_rest_le lexed
          split at spelt
          · cases spelt
          · rename_i later more
            cases spelt
            obtain ⟨fewer, lexemes⟩ := ih x.rest.length (by omega) more rfl
            rw [List.length_cons, List.forall_mem_cons]
            refine ⟨by omega, ⟨c, tail, x, lexed, rfl, by omega⟩, fun t inside => ?_⟩
            obtain ⟨c', rest, y, found, same, inner⟩ := lexemes t inside
            exact ⟨c', rest, y, found, same, by omega⟩

end TokenLine

/-- A note is written as a word. -/
theorem Lexeme.classify_of_note {c : Char} {cs : List Char} {x : Lexeme} {n : Note}
    (found : ofChars c cs = .ok x) (note : x.token = .note n) :
    Word.classify ((c :: cs).takeWhile Word.isWordChar) = .ok (.note n) := by
  unfold ofChars at found
  split at found
  case h_10 =>
    simp only [ofQuoted] at found
    split at found <;> cases found
    cases note
  case h_11 =>
    simp only [ofTimes] at found
    split at found <;> cases found
    cases note
  case h_12 =>
    split at found
    · cases found
      unfold ofNumber at note
      simp only at note
      split at note <;> cases note
    · split at found
      · unfold ofWord at found
        simp only at found
        split at found
        · cases found
          cases note
        · cases word : Word.classify ((c :: cs).takeWhile Word.isWordChar) with
          | error fault =>
              rw [word] at found
              cases found
          | ok token =>
              rw [word] at found
              cases found
              exact congrArg _ note
      · cases found
  all_goals
    cases found
    cases note

/-- The accidentals of a note are within the limit. -/
def Note.Limited (n : Note) : Prop := n.accidentals.natAbs ≤ maxAccidentals

theorem TokenLine.limited_of_mem {text : String} {line : TokenLine} {n : Note}
    (short : text.length < 2 ^ 31) (spelt : ofString text = .ok line)
    (inside : .note n ∈ line.tokens.map (·.token)) : n.Limited := by
  obtain ⟨t, listed, token⟩ := List.mem_map.mp inside
  obtain ⟨c, rest, x, found, same, inner⟩ := (tokens_ofCharsAt spelt).2 t listed
  have word := (List.takeWhile_prefix Word.isWordChar (l := c :: rest)).length_le
  rw [← String.length_toList] at short
  rw [List.length_cons] at word
  exact Checked.natAbs_of_classify (by omega) (Lexeme.classify_of_note found (same.trans token))

namespace Form

mutual

/-- Every note in a form is of a certain kind. -/
def Holds (kind : Note → Prop) : Form → Prop
  | .note n => kind n
  | .chord members => ∀ n, .note n ∈ members → kind n
  | .sequence forms => HoldsAll kind forms
  | .repeated form _ => form.Holds kind
  | _ => True

def HoldsAll (kind : Note → Prop) : List Form → Prop
  | [] => True
  | form :: forms => form.Holds kind ∧ HoldsAll kind forms

end

theorem holdsAll_append {kind : Note → Prop} (forms more : List Form) :
    HoldsAll kind (forms ++ more) ↔ HoldsAll kind forms ∧ HoldsAll kind more := by
  induction forms with
  | nil => simp only [List.nil_append, HoldsAll, true_and]
  | cons form forms ih => rw [List.cons_append, HoldsAll, HoldsAll, ih, and_assoc]

end Form

namespace Grammar

variable {kind : Note → Prop}

def Notated (kind : Note → Prop) (tokens : List Token) : Prop := ∀ n, .note n ∈ tokens → kind n

theorem Notated.append {tokens more : List Token} (notated : Notated kind (tokens ++ more)) :
    Notated kind tokens ∧ Notated kind more :=
  ⟨fun n inside => notated n (List.mem_append_left more inside),
    fun n inside => notated n (List.mem_append_right tokens inside)⟩

theorem notes_of_members_tokens {tokens : List Token} {members : List ChordMember}
    (derivation : Members tokens members) (notated : Notated kind tokens) :
    ∀ n, .note n ∈ members → kind n := by
  induction derivation with
  | one member =>
      intro n inside
      cases member with
      | note other =>
          cases List.mem_singleton.mp inside
          exact notated n List.mem_cons_self
      | rest length => cases List.mem_singleton.mp inside
  | more before member ih =>
      obtain ⟨earlier, last⟩ := notated.append
      intro n inside
      rcases List.mem_append.mp inside with old | new
      · exact ih earlier n old
      · cases member with
        | note other =>
            cases List.mem_singleton.mp new
            exact last n (List.mem_cons_of_mem _ List.mem_cons_self)
        | rest length => cases List.mem_singleton.mp new

theorem holds_notes {tokens : List Token} {form : Form} (derivation : Notes tokens form)
    (notated : Notated kind tokens) : form.Holds kind := by
  cases derivation with
  | note n => exact notated n List.mem_cons_self
  | rest length => trivial
  | chord members several => exact notes_of_members_tokens members notated

/-- A repeat has the notes of what it repeats. -/
theorem holds_repeated {tokens more : List Token} {single form : Form}
    (derivation : Repeated tokens single more form)
    (inner : Notated kind tokens → single.Holds kind) (notated : Notated kind more) :
    form.Holds kind := by
  cases derivation with
  | once => exact inner notated
  | times n => exact inner notated.append.1

mutual

theorem holds_event {tokens : List Token} {form : Form} :
    Event tokens form → Notated kind tokens → form.Holds kind
  | .notes derivation repeated, notated =>
      holds_repeated repeated (holds_notes derivation) notated
  | .octave _, _ | .octaveUp, _ | .octaveDown, _ | .setting _, _ | .voice _, _ => trivial
  | .sequence items repeated, notated =>
      holds_repeated repeated
        (fun bracketed => holdsAll_items items
          fun n inside => bracketed n
            (List.mem_append_left _ (List.mem_cons_of_mem _ inside)))
        notated

theorem holdsAll_items {tokens : List Token} {forms : List Form} :
    Items tokens forms → Notated kind tokens → Form.HoldsAll kind forms
  | .none, _ => trivial
  | .barline items, notated => holdsAll_items items notated.append.1
  | .event items derivation, notated =>
      (Form.holdsAll_append _ _).mpr ⟨holdsAll_items items notated.append.1,
        holds_event derivation notated.append.2, trivial⟩

end

theorem holdsAll_part {tokens : List Token} {forms : List Form} (derivation : Part tokens forms)
    (notated : Notated kind tokens) : Form.HoldsAll kind forms := by
  cases derivation with
  | declared declaration items => exact ⟨trivial, holdsAll_items items notated.append.2⟩

theorem holdsAll_parts {tokens : List Token} {forms : List Form}
    (derivation : Parts tokens forms) (notated : Notated kind tokens) :
    Form.HoldsAll kind forms := by
  induction derivation with
  | one part => exact holdsAll_part part notated
  | more before last ih =>
      obtain ⟨earlier, later⟩ := notated.append
      exact (Form.holdsAll_append _ _).mpr ⟨ih earlier, holdsAll_part last later⟩

theorem holdsAll_attributes {tokens : List Token} {forms : List Form}
    (derivation : Attributes tokens forms) : Form.HoldsAll kind forms := by
  induction derivation with
  | none => trivial
  | more before setting ih => exact (Form.holdsAll_append _ _).mpr ⟨ih, trivial, trivial⟩

/-- What holds of the notes of the tokens holds of those of the forms. -/
theorem holdsAll_of_derives {entry : Entry} {tokens : List Token} {forms : List Form}
    (derivation : Derives entry tokens forms) (notated : Notated kind tokens) :
    Form.HoldsAll kind forms := by
  cases derivation with
  | musicData items music => exact holdsAll_items items notated
  | part part => exact holdsAll_part part notated
  | score attributes parts =>
      exact (Form.holdsAll_append _ _).mpr
        ⟨holdsAll_attributes attributes, holdsAll_parts parts notated.append.2⟩

end Grammar

/-- The forms of a text have no note with more accidentals than the limit. -/
theorem Entry.limited_of_read {entry : Entry} {text : String} {forms : List Form}
    (short : text.length < 2 ^ 31) (read : entry.read text = .ok forms) :
    Form.HoldsAll Note.Limited forms := by
  obtain ⟨line, spelt, derivation⟩ := (entry.read_eq_ok_iff text forms).mp read
  exact Grammar.holdsAll_of_derives derivation fun n inside =>
    TokenLine.limited_of_mem short spelt inside

end Songline
