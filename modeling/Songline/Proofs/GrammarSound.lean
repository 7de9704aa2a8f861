import Songline.Proofs.GrammarComplete
import Songline.Proofs.GrammarLevels

set_option autoImplicit false

/- Whatever is read is derived by the grammar. What the reader holds always tells which tokens it
has read: the open sequences, each with the items before it, and the event or declaration it is in.
-/
namespace Songline

namespace Reader

open Grammar

/-- The tokens before the item that the reader is in. -/
def At (r : Reader) (tokens : List Token) : Prop :=
  Level r.entry r.declared tokens r.forms r.outer

/-- The tokens before the declaration that the reader is in. -/
def Prefaced (r : Reader) (tokens : List Token) : Prop :=
  r.outer = [] ∧ Preface r.entry tokens r.forms.reverse

/-- The reader holds what these tokens say. -/
def Spells (r : Reader) (tokens : List Token) : Prop :=
  match r.phase with
  | .events => r.declared ∧ r.At tokens
  | .members seen =>
      ∃ before chord, tokens = before ++ chord ∧ r.declared ∧ r.At before ∧
        Members chord seen.reverse
  | .slashed seen =>
      ∃ before chord, tokens = before ++ chord ++ [.slash] ∧ r.declared ∧ r.At before ∧
        Members chord seen.reverse
  | .bracketed form =>
      ∃ before inner forms, tokens = before ++ (.openBracket :: inner ++ [.closeBracket]) ∧
        r.declared ∧ r.At before ∧ Items inner forms ∧ form = .sequence forms
  | .settingName => ∃ before, tokens = before ++ [.openParen] ∧ r.At before
  | .settingValue name => ∃ before, tokens = before ++ [.openParen, .name name] ∧ r.At before
  | .settingEnd name value =>
      ∃ before, tokens = before ++ [.openParen, .name name, .number value] ∧ r.At before
  | .partName names =>
      (names = [] ∧ r.Prefaced tokens) ∨
        ∃ before spelt, tokens = before ++ spelt ++ [.slash] ∧ r.Prefaced before ∧
          Names spelt names.reverse
  | .partNames names =>
      ∃ before spelt, tokens = before ++ spelt ∧ r.Prefaced before ∧ Names spelt names.reverse
  | .partAlias names nick =>
      ∃ before spelt, tokens = before ++ spelt ++ [.quoted nick] ∧ r.Prefaced before ∧
        Names spelt names.reverse
  | .preamble => r.declared = false ∧ r.At tokens

theorem spells_start (entry : Entry) : (start entry).Spells [] := by
  cases entry with
  | musicData => exact ⟨rfl, .outline (.musicData .none)⟩
  | part => exact Or.inl ⟨rfl, rfl, .part⟩
  | score => exact ⟨rfl, .preamble rfl .none⟩

theorem spells_push {r : Reader} {before more : List Token} {form : Form}
    (declared : r.declared) (level : r.At before) (event : Grammar.Event more form) :
    (r.push form).Spells (before ++ more) := by
  refine ⟨declared, ?_⟩
  unfold At at level ⊢
  simp only [push, declared] at level ⊢
  exact level.event event

theorem event_of_members {tokens : List Token} {members : List ChordMember}
    (derivation : Members tokens members) : Grammar.Event tokens (.ofMembers members) :=
  .notes (notes_of_members derivation) .once

theorem event_of_items {tokens : List Token} {forms : List Form} (derivation : Items tokens forms) :
    Grammar.Event (.openBracket :: tokens ++ [.closeBracket]) (.sequence forms) :=
  .sequence derivation .once

/-- Settling an event changes nothing about what has been read. -/
theorem spells_settle {r : Reader} {tokens : List Token} (spelt : r.Spells tokens)
    (resting : r.Resting) : r.settle.declared ∧ r.settle.At tokens := by
  unfold Spells at spelt
  unfold Resting at resting
  cases phase : r.phase with
  | events =>
      rw [phase] at spelt
      rw [settle_of_events r phase]
      exact spelt
  | members seen =>
      rw [phase] at spelt
      obtain ⟨before, chord, rfl, declared, level, members⟩ := spelt
      rw [settle, phase]
      exact spells_push declared level (event_of_members members)
  | bracketed form =>
      rw [phase] at spelt
      obtain ⟨before, inner, forms, rfl, declared, level, items, rfl⟩ := spelt
      rw [settle, phase]
      exact spells_push declared level (event_of_items items)
  | _ => simp [settle, phase] at resting

theorem prefaced_of_score {r : Reader} {tokens : List Token} (declared : r.declared)
    (level : r.At tokens) (score : r.entry = .score) (outermost : r.outer = []) :
    r.Prefaced tokens := by
  refine ⟨outermost, ?_⟩
  unfold At at level
  rw [declared, outermost] at level
  rw [score] at level ⊢
  generalize r.forms = forms at level
  cases level with
  | outline outline =>
      rw [List.reverse_reverse]
      exact .parts outline

theorem prefaced_of_preamble {r : Reader} {tokens : List Token} (undeclared : r.declared = false)
    (level : r.At tokens) : r.Prefaced tokens := by
  unfold At at level
  rw [undeclared] at level
  unfold Prefaced
  generalize r.forms = forms at level ⊢
  generalize r.outer = outer at level ⊢
  cases level with
  | preamble score attributes =>
      refine ⟨rfl, ?_⟩
      rw [score, List.reverse_reverse]
      exact .attributes attributes

theorem spells_name {r next : Reader} {names : List String} {name : String} {tokens : List Token}
    (success : r.name names name = .ok next)
    (spelt : ∃ before spelt, tokens = before ++ spelt ∧ r.Prefaced before ∧
      (IsName name → Names spelt (name :: names).reverse)) :
    next.Spells tokens := by
  obtain ⟨before, spelt, rfl, prefaced, derivation⟩ := spelt
  unfold Reader.name at success
  split at success
  · rename_i letters
    cases success
    exact ⟨before, spelt, rfl, prefaced, derivation ((isPartName_iff name).mp letters)⟩
  · cases success

theorem spells_first_name {r next : Reader} {name : String} {tokens : List Token}
    (success : r.name [] name = .ok next) (prefaced : r.Prefaced tokens) :
    next.Spells (tokens ++ [.name name]) :=
  spells_name success ⟨tokens, [.name name], rfl, prefaced, .one⟩

/-- A token between two events is a barline, opens or closes a sequence, or begins an event or a
declaration. -/
theorem spells_event {r next : Reader} {token : Token} {tokens : List Token}
    (between : r.phase = .events) (declared : r.declared) (level : r.At tokens)
    (success : r.event token = .ok next) : next.Spells (tokens ++ [token]) := by
  cases token with
  | note n =>
      cases success
      exact ⟨tokens, [.note n], rfl, declared, level, .one (.note n)⟩
  | rest length =>
      cases success
      exact ⟨tokens, [.rest length], rfl, declared, level, .one (.rest length)⟩
  | octave n =>
      cases success
      exact spells_push declared level (.octave n)
  | octaveUp =>
      cases success
      exact spells_push declared level .octaveUp
  | octaveDown =>
      cases success
      exact spells_push declared level .octaveDown
  | voice n =>
      cases success
      exact spells_push declared level (.voice n)
  | barline =>
      cases success
      unfold Spells
      rw [between]
      unfold At at level ⊢
      rw [declared] at level ⊢
      exact ⟨rfl, level.barline⟩
  | openParen =>
      cases success
      exact ⟨tokens, rfl, level⟩
  | openBracket =>
      cases success
      unfold Spells
      simp only [between]
      unfold At at level ⊢
      simp only [declared] at level ⊢
      exact ⟨trivial, .bracket level .none⟩
  | closeBracket =>
      simp only [event] at success
      unfold At at level
      rw [declared] at level
      generalize opened : r.forms = inner at level success
      generalize r.outer = outer at level success
      cases level with
      | outline => cases success
      | @bracket before more forms inner outer level items =>
          cases success
          refine ⟨before, more, inner, ?_, declared, ?_, items, ?_⟩
          · rw [List.append_assoc, List.cons_append]
          · unfold At
            rw [declared]
            exact level
          · rw [List.reverse_reverse]
  | name s =>
      simp only [event] at success
      split at success
      · rename_i outermost
        exact spells_first_name success
          (prefaced_of_score declared level outermost.1 outermost.2)
      · cases success
  | quoted | number | closeParen | slash | colon | times => cases success

theorem spells_fresh {r next : Reader} {token : Token} {tokens : List Token}
    (spelt : r.Spells tokens) (resting : r.Resting) (fresh : Fresh token)
    (success : r.feed token = .ok next) : next.Spells (tokens ++ [token]) := by
  obtain ⟨declared, level⟩ := spells_settle spelt resting
  rw [feed_settle r token resting fresh, feed_of_events _ token resting] at success
  exact spells_event resting declared level success

/-- A note or rest goes on with a slash, and both it and a sequence with a repeat. -/
theorem spells_stale {r next : Reader} {token : Token} {tokens : List Token}
    (spelt : r.Spells tokens) (resting : r.Resting) (stale : ¬ Fresh token)
    (success : r.feed token = .ok next) : next.Spells (tokens ++ [token]) := by
  unfold Spells at spelt
  unfold Resting at resting
  unfold feed at success
  cases phase : r.phase with
  | events =>
      simp only [phase] at success
      cases token with
      | slash | times n => cases success
      | _ => exact absurd trivial stale
  | members seen =>
      simp only [phase] at spelt success
      obtain ⟨before, chord, rfl, declared, level, members⟩ := spelt
      cases token with
      | slash =>
          cases success
          exact ⟨before, chord, rfl, declared, level, members⟩
      | times n =>
          cases success
          rw [List.append_assoc]
          exact spells_push declared level (.notes (notes_of_members members) (.times n))
      | _ => exact absurd trivial stale
  | bracketed form =>
      simp only [phase] at spelt success
      obtain ⟨before, inner, forms, rfl, declared, level, items, rfl⟩ := spelt
      cases token with
      | slash =>
          simp only [settle, phase] at success
          cases success
      | times n =>
          cases success
          rw [List.append_assoc]
          exact spells_push declared level (.sequence items (.times n))
      | _ => exact absurd trivial stale
  | _ => simp [settle, phase] at resting

theorem spells_setting {r : Reader} {name : String} {value : Float} {before : List Token}
    (level : r.At before) :
    (r.pushSetting (settingOf name value)).Spells
      (before ++ [.openParen, .name name, .number value, .closeParen]) := by
  have derivation : Attribute [.openParen, .name name, .number value, .closeParen]
      (settingOf name value) := by
    by_cases marked : ∃ stem : String, name = stem ++ "!"
    · obtain ⟨stem, rfl⟩ := marked
      rw [settingOf_everywhere]
      exact .everywhere stem value
    · have plain : ∀ stem : String, name ≠ stem ++ "!" :=
        fun stem same => marked ⟨stem, same⟩
      rw [settingOf_here name value plain]
      exact .here value plain
  have after := Level.attribute level derivation
  cases declared : r.declared with
  | true =>
      simp only [Spells, pushSetting, declared, At, ↓reduceIte, true_and]
      rw [declared] at after
      exact after
  | false =>
      simp only [Spells, pushSetting, declared, At, Bool.false_eq_true, ↓reduceIte, true_and]
      rw [declared] at after
      exact after

theorem spells_declaration {r : Reader} {before more : List Token} {decl : PartDecl}
    (prefaced : r.Prefaced before) (declaration : Declaration more decl) :
    Spells { r.push (.part decl) with declared := true } (before ++ more) := by
  obtain ⟨outermost, preface⟩ := prefaced
  have outline := Level.outline (preface.declaration declaration)
  rw [List.reverse_append, List.reverse_reverse] at outline
  refine ⟨rfl, ?_⟩
  simp only [At, push, outermost]
  exact outline

/-- One more token has been read. -/
theorem spells_feed {r next : Reader} {token : Token} {tokens : List Token}
    (spelt : r.Spells tokens) (success : r.feed token = .ok next) :
    next.Spells (tokens ++ [token]) := by
  by_cases resting : r.Resting
  · by_cases fresh : Fresh token
    · exact spells_fresh spelt resting fresh success
    · exact spells_stale spelt resting fresh success
  unfold Spells at spelt
  unfold feed at success
  cases phase : r.phase with
  | events | members seen | bracketed form =>
      -- the phases in which an event may have ended, and so resting
      refine absurd ?_ resting
      simp [Resting, settle, phase, push]
  | slashed seen =>
      simp only [phase] at spelt success
      obtain ⟨before, chord, rfl, declared, level, members⟩ := spelt
      split at success
      · rename_i n
        cases success
        refine ⟨before, chord ++ [.slash, .note n], by simp, declared, level, ?_⟩
        rw [List.reverse_cons]
        exact .more members (.note n)
      · rename_i length
        cases success
        refine ⟨before, chord ++ [.slash, .rest length], by simp, declared, level, ?_⟩
        rw [List.reverse_cons]
        exact .more members (.rest length)
      · cases success
  | settingName =>
      simp only [phase] at spelt success
      obtain ⟨before, rfl, level⟩ := spelt
      split at success
      · cases success
        exact ⟨before, by simp, level⟩
      · cases success
  | settingValue name =>
      simp only [phase] at spelt success
      obtain ⟨before, rfl, level⟩ := spelt
      split at success
      · cases success
        exact ⟨before, by simp, level⟩
      · cases success
  | settingEnd name value =>
      simp only [phase] at spelt success
      obtain ⟨before, rfl, level⟩ := spelt
      split at success
      · cases success
        rw [List.append_assoc]
        exact spells_setting level
      · cases success
  | partName names =>
      simp only [phase] at spelt success
      split at success
      · rename_i name
        rcases spelt with ⟨rfl, prefaced⟩ | ⟨before, spelt, rfl, prefaced, derivation⟩
        · exact spells_first_name success prefaced
        · refine spells_name success
            ⟨before, spelt ++ [.slash, .name name], by simp, prefaced, fun isName => ?_⟩
          rw [List.reverse_cons]
          exact .more derivation isName
      · cases success
  | partNames names =>
      simp only [phase] at spelt success
      obtain ⟨before, spelt, rfl, prefaced, derivation⟩ := spelt
      split at success
      · cases success
        exact Or.inr ⟨before, spelt, rfl, prefaced, derivation⟩
      · cases success
        exact ⟨before, spelt, rfl, prefaced, derivation⟩
      · cases success
        rw [List.append_assoc]
        exact spells_declaration prefaced (.plain derivation)
      · cases success
  | partAlias names nick =>
      simp only [phase] at spelt success
      obtain ⟨before, spelt, rfl, prefaced, derivation⟩ := spelt
      split at success
      · cases success
        rw [List.append_assoc, List.append_assoc]
        exact spells_declaration prefaced (.nicknamed nick derivation)
      · cases success
  | preamble =>
      simp only [phase] at spelt success
      obtain ⟨undeclared, level⟩ := spelt
      split at success
      · cases success
        exact ⟨tokens, rfl, level⟩
      · exact spells_first_name success (prefaced_of_preamble undeclared level)
      · cases success

theorem entry_settle (r : Reader) : r.settle.entry = r.entry := by
  unfold settle
  split <;> rfl

theorem entry_name {r next : Reader} {names : List String} {name : String}
    (success : r.name names name = .ok next) : next.entry = r.entry := by
  unfold Reader.name at success
  split at success <;> cases success
  rfl

theorem entry_event {r next : Reader} {token : Token} (success : r.event token = .ok next) :
    next.entry = r.entry := by
  cases token with
  | closeBracket =>
      simp only [event] at success
      split at success <;> cases success
      rfl
  | name s =>
      simp only [event] at success
      split at success
      · exact entry_name success
      · cases success
  | quoted | number | closeParen | slash | colon | times => cases success
  | _ =>
      cases success
      rfl

/-- Reading never changes what the text is read as. -/
theorem entry_feed {r next : Reader} {token : Token} (success : r.feed token = .ok next) :
    next.entry = r.entry := by
  unfold feed at success
  split at success
  · exact entry_event success
  · split at success
    · cases success; rfl
    · cases success; rfl
    · exact (entry_event success).trans (entry_settle r)
  · split at success <;> cases success <;> rfl
  · split at success
    · cases success; rfl
    · exact (entry_event success).trans (entry_settle r)
  · split at success <;> cases success; rfl
  · split at success <;> cases success; rfl
  · split at success <;> cases success; rfl
  · split at success
    · exact entry_name success
    · cases success
  · split at success <;> cases success <;> rfl
  · split at success <;> cases success; rfl
  · split at success
    · cases success; rfl
    · exact entry_name success
    · cases success

/-- What each token keeps up is kept up by any number of them. -/
theorem feedAll_induction {holds : Reader → List Token → Prop}
    (step : ∀ (r next : Reader) (token : Token) (tokens : List Token), holds r tokens →
      r.feed token = .ok next → holds next (tokens ++ [token]))
    {r last : Reader} {tokens more : List Token} (before : holds r tokens)
    (success : r.feedAll more = .ok last) : holds last (tokens ++ more) := by
  induction more generalizing r tokens with
  | nil =>
      cases success
      rw [List.append_nil]
      exact before
  | cons token more ih =>
      rw [feedAll_cons] at success
      cases read : r.feed token with
      | error fault =>
          rw [read] at success
          cases success
      | ok next =>
          rw [read] at success
          have after := ih (step r next token tokens before read) success
          rw [List.append_assoc, List.singleton_append] at after
          exact after

theorem spells_feedAll {entry : Entry} {last : Reader} {tokens : List Token}
    (success : (start entry).feedAll tokens = .ok last) :
    last.entry = entry ∧ last.Spells tokens := by
  have step : ∀ (r next : Reader) (token : Token) (tokens : List Token),
      (r.entry = entry ∧ r.Spells tokens) → r.feed token = .ok next →
        next.entry = entry ∧ next.Spells (tokens ++ [token]) :=
    fun r next token tokens before read =>
      ⟨(entry_feed read).trans before.1, spells_feed before.2 read⟩
  exact feedAll_induction step ⟨rfl, spells_start entry⟩ success

theorem derives_of_outline {entry : Entry} {tokens : List Token} {forms : List Form}
    (outline : Outline entry tokens forms) (music : entry = .musicData → forms ≠ []) :
    Derives entry tokens forms := by
  cases outline with
  | musicData items => exact .musicData items (music rfl)
  | part part => exact .part part
  | score attributes parts => exact .score attributes parts

theorem resting_of_finish {r : Reader} {forms : List Form} (success : r.finish = .ok forms) :
    r.Resting := by
  unfold finish at success
  unfold Resting settle
  cases phase : r.phase with
  | events | members seen | bracketed form => simp [push, phase]
  | _ => simp [phase] at success

/-- The end of a text can stand only where the tokens before it are a text of the entry. -/
theorem derives_of_finish {r : Reader} {tokens : List Token} {forms : List Form}
    (spelt : r.Spells tokens) (success : r.finish = .ok forms) :
    Derives r.entry tokens forms := by
  have resting := resting_of_finish success
  obtain ⟨declared, level⟩ := spells_settle spelt resting
  rw [finish_settle r resting] at success
  rw [← entry_settle r]
  unfold Resting at resting
  generalize r.settle = last at declared level success resting
  unfold finish at success
  simp only [resting, settle_of_events last resting] at success
  split at success
  · cases success
  rename_i closed
  split at success
  · cases success
  rename_i music
  cases success
  unfold At at level
  rw [declared, Decidable.not_not.mp closed] at level
  generalize last.forms = latest at level music
  cases level with
  | outline outline =>
      rw [List.reverse_reverse]
      refine derives_of_outline outline fun isMusic empty => music ⟨isMusic, ?_⟩
      rw [empty]
      rfl

end Reader

namespace TokenLine

open Grammar

theorem read_eq_ok_iff (line : TokenLine) (entry : Entry) (forms : List Form) :
    line.read entry = .ok forms ↔ Derives entry (line.tokens.map (·.token)) forms := by
  have runs : line.read entry = .ok forms ↔
      (Reader.start entry).run line.finish line.tokens = .ok forms :=
    Reader.mapError_eq_ok_iff _ _ _
  rw [runs, Reader.run_eq_ok_iff]
  constructor
  · rintro ⟨last, read, finished⟩
    obtain ⟨same, spelt⟩ := Reader.spells_feedAll read
    rw [← same]
    exact Reader.derives_of_finish spelt finished
  · exact Reader.feedAll_of_derives

/-- A line can be read as an entry just when the grammar derives its tokens from the entry, and
what it is read as is then the only thing that they can say. -/
theorem read_exactly_derives (line : TokenLine) (entry : Entry) :
    ((∃ forms, line.read entry = .ok forms) ↔
      ∃ forms, Derives entry (line.tokens.map (·.token)) forms) ∧
    ∀ forms, line.read entry = .ok forms →
      Derives entry (line.tokens.map (·.token)) forms ∧
        ∀ others, Derives entry (line.tokens.map (·.token)) others → others = forms := by
  refine ⟨exists_congr (line.read_eq_ok_iff entry), fun forms success => ?_⟩
  refine ⟨(line.read_eq_ok_iff entry forms).mp success, fun others derivation => ?_⟩
  have again := (line.read_eq_ok_iff entry others).mpr derivation
  rw [success] at again
  exact (Except.ok.inj again).symm

end TokenLine

/-- A text is read as an entry through its tokens. -/
theorem Entry.read_eq_ok_iff (entry : Entry) (text : String) (forms : List Form) :
    entry.read text = .ok forms ↔
      ∃ line, TokenLine.ofString text = .ok line ∧
        Grammar.Derives entry (line.tokens.map (·.token)) forms := by
  rw [Entry.read]
  cases TokenLine.ofString text with
  | error e =>
      refine ⟨fun read => ?_, ?_⟩
      · cases read
      · rintro ⟨line, spelt, -⟩
        cases spelt
  | ok line =>
      refine (line.read_eq_ok_iff entry forms).trans ⟨fun derivation => ⟨line, rfl, derivation⟩, ?_⟩
      rintro ⟨other, spelt, derivation⟩
      cases spelt
      exact derivation

end Songline
