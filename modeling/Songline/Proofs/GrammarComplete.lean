import Songline.Proofs.Grammar

set_option autoImplicit false

/- Whatever the grammar derives is read, and read as what it derives. A derivation takes the reader
from between two events to a place where the last event can still go on, so what is known there is
what the reader holds once that event is settled. -/
namespace Songline.Reader

open Grammar

def feedAll (r : Reader) (tokens : List Token) : Except GrammarFault Reader :=
  tokens.foldlM feed r

@[simp] theorem feedAll_nil (r : Reader) : r.feedAll [] = .ok r := rfl

@[simp] theorem feedAll_cons (r : Reader) (token : Token) (tokens : List Token) :
    r.feedAll (token :: tokens) = (r.feed token).bind (·.feedAll tokens) := rfl

theorem feedAll_append (r : Reader) (tokens more : List Token) :
    r.feedAll (tokens ++ more) = (r.feedAll tokens).bind (·.feedAll more) :=
  List.foldlM_append

theorem feedAll_append_of_ok (r next : Reader) (tokens more : List Token)
    (success : r.feedAll tokens = .ok next) :
    r.feedAll (tokens ++ more) = next.feedAll more := by
  rw [feedAll_append, success]
  rfl

theorem feedAll_singleton (r : Reader) (token : Token) : r.feedAll [token] = r.feed token := by
  rw [feedAll_cons]
  cases r.feed token <;> rfl

theorem mapError_eq_ok_iff {α β γ : Type} (f : α → β) (result : Except α γ) (value : γ) :
    result.mapError f = .ok value ↔ result = .ok value := by
  cases result with
  | error e => exact ⟨nofun, nofun⟩
  | ok other =>
      constructor
      · intro same
        cases same
        rfl
      · intro same
        cases same
        rfl

/-- A run succeeds when every token is read and the text may end after the last one. -/
theorem run_eq_ok_iff (r : Reader) (finish : Position) (tokens : List Token.Placed)
    (forms : List Form) :
    r.run finish tokens = .ok forms ↔
      ∃ last, r.feedAll (tokens.map (·.token)) = .ok last ∧ last.finish = .ok forms := by
  induction tokens generalizing r with
  | nil =>
      simp only [run, List.map_nil, feedAll_nil, Except.ok.injEq, exists_eq_left',
        mapError_eq_ok_iff]
  | cons token tokens ih =>
      rw [List.map_cons, feedAll_cons, run]
      cases r.feed token.token with
      | error fault => simp [Except.bind]
      | ok next => exact ih next

def pushAll (r : Reader) (forms : List Form) : Reader :=
  { r with phase := .events, forms := forms.reverse ++ r.forms }

theorem pushAll_append_singleton (r : Reader) (forms : List Form) (form : Form) :
    r.pushAll (forms ++ [form]) = (r.pushAll forms).push form := by
  simp [pushAll, push]

/-- A token that the event before it cannot take in. -/
def Fresh : Token → Prop
  | .slash | .times _ => False
  | _ => True

/-- Tokens of which the event before them cannot take in the first. -/
def Begins (tokens : List Token) : Prop :=
  ∃ token rest, tokens = token :: rest ∧ Fresh token

theorem Begins.append {tokens : List Token} (begins : Begins tokens) (more : List Token) :
    Begins (tokens ++ more) := by
  obtain ⟨token, rest, rfl, fresh⟩ := begins
  exact ⟨token, rest ++ more, rfl, fresh⟩

/-- Between two events, or where an event may already have ended. -/
def Resting (r : Reader) : Prop :=
  r.settle.phase = .events

theorem resting_of_settle {r next : Reader} (settled : r.settle = next)
    (between : next.phase = .events) : r.Resting := by
  rw [Resting, settled]
  exact between

theorem settle_of_events (r : Reader) (between : r.phase = .events) : r.settle = r := by
  simp only [settle, between]

theorem feed_of_events (r : Reader) (token : Token) (between : r.phase = .events) :
    r.feed token = r.event token := by
  simp only [feed, between]

/-- A fresh token ends the event before it. -/
theorem feed_settle (r : Reader) (token : Token) (resting : r.Resting) (fresh : Fresh token) :
    r.feed token = r.settle.feed token := by
  rw [feed_of_events r.settle token resting]
  unfold Resting at resting
  cases phase : r.phase with
  | events => rw [settle_of_events r phase, feed_of_events r token phase]
  | members seen =>
      cases token <;> simp_all [feed, Fresh]
  | bracketed form =>
      cases token <;> simp_all [feed, Fresh]
  | _ => simp [settle, phase] at resting

theorem feedAll_settle (r : Reader) (tokens : List Token) (resting : r.Resting)
    (begins : Begins tokens) : r.feedAll tokens = r.settle.feedAll tokens := by
  obtain ⟨token, rest, rfl, fresh⟩ := begins
  rw [feedAll_cons, feed_settle r token resting fresh, ← feedAll_cons]

theorem finish_settle (r : Reader) (resting : r.Resting) : r.finish = r.settle.finish := by
  unfold Resting at resting
  cases phase : r.phase with
  | events => rw [settle_of_events r phase]
  | members seen => simp [finish, settle, phase, push]
  | bracketed form => simp [finish, settle, phase, push]
  | _ => simp [settle, phase] at resting

theorem feedAll_members {tokens : List Token} {members : List ChordMember}
    (derivation : Members tokens members) (r : Reader) (between : r.phase = .events) :
    r.feedAll tokens = .ok { r with phase := .members members.reverse } := by
  induction derivation with
  | one member =>
      rw [feedAll_singleton, feed_of_events r _ between]
      cases member <;> rfl
  | more members member ih =>
      rw [feedAll_append_of_ok _ _ _ _ ih]
      cases member <;> simp [feed, Except.bind]

/-- A repeat wraps the event that the reader has just seen the end of. -/
theorem feedAll_repeated {tokens event : List Token} {form whole : Form}
    (repeated : Repeated tokens form event whole) (r last : Reader)
    (read : r.feedAll tokens = .ok last) (settled : last.settle = r.push form)
    (repeats : ∀ n, last.feed (.times n) = .ok (r.push (.repeated form n))) :
    ∃ last, r.feedAll event = .ok last ∧ last.settle = r.push whole := by
  cases repeated with
  | once => exact ⟨last, read, settled⟩
  | times n =>
      refine ⟨r.push (.repeated form n), ?_, rfl⟩
      rw [feedAll_append_of_ok r last tokens _ read, feedAll_singleton, repeats]

theorem settingOf_everywhere (stem : String) (value : Float) :
    settingOf (stem ++ "!") value = ⟨stem, value, true⟩ := by
  simp [settingOf]

theorem settingOf_here (name : String) (value : Float)
    (plain : ∀ stem : String, name ≠ stem ++ "!") :
    settingOf name value = ⟨name, value, false⟩ := by
  unfold settingOf
  split
  · rename_i marked
    obtain ⟨stem, split⟩ := List.getLast?_eq_some_iff.mp marked
    refine absurd ?_ (plain (String.ofList stem))
    apply String.toList_injective
    simp [split]
  · rfl

theorem feedAll_setting (r : Reader) (name : String) (value : Float)
    (opened : r.feed .openParen = .ok { r with phase := .settingName }) :
    r.feedAll [.openParen, .name name, .number value, .closeParen] =
      .ok (r.pushSetting (settingOf name value)) := by
  rw [feedAll_cons, opened]
  rfl

theorem feedAll_attribute {tokens : List Token} {s : Setting} (derivation : Attribute tokens s)
    (r : Reader) (opened : r.feed .openParen = .ok { r with phase := .settingName }) :
    r.feedAll tokens = .ok (r.pushSetting s) := by
  cases derivation with
  | here value plain => rw [feedAll_setting r _ value opened, settingOf_here _ value plain]
  | everywhere stem value =>
      rw [feedAll_setting r _ value opened, settingOf_everywhere stem value]

theorem begins_members {tokens : List Token} {members : List ChordMember}
    (derivation : Members tokens members) : Begins tokens := by
  induction derivation with
  | one member => cases member <;> exact ⟨_, [], rfl, trivial⟩
  | more members member ih => exact ih.append _

theorem begins_repeated {tokens event : List Token} {form whole : Form}
    (repeated : Repeated tokens form event whole) (begins : Begins tokens) : Begins event := by
  cases repeated with
  | once => exact begins
  | times n => exact begins.append _

/-- The first token of an event does not belong to the event before. -/
theorem begins_event {tokens : List Token} {form : Form} (derivation : Grammar.Event tokens form) :
    Begins tokens := by
  cases derivation with
  | notes derivation repeated =>
      obtain ⟨_, members, -⟩ := members_of_notes derivation
      exact begins_repeated repeated (begins_members members)
  | setting derivation => cases derivation <;> exact ⟨_, _, rfl, trivial⟩
  | sequence items repeated => exact begins_repeated repeated ⟨_, _, rfl, trivial⟩
  | _ => exact ⟨_, [], rfl, trivial⟩

theorem pushAll_nil (r : Reader) (between : r.phase = .events) : r.pushAll [] = r := by
  cases r
  simp_all [pushAll]

mutual

theorem feedAll_event {tokens : List Token} {form : Form} :
    Grammar.Event tokens form → ∀ r : Reader, r.phase = .events → r.declared →
      ∃ last, r.feedAll tokens = .ok last ∧ last.settle = r.push form
  | .notes derivation repeated, r, between, _ => by
      obtain ⟨_, members, rfl⟩ := members_of_notes derivation
      exact feedAll_repeated repeated r _ (feedAll_members members r between)
        (by simp [settle, push]) (fun n => by simp [feed, push])
  | .octave n, r, between, _ =>
      ⟨_, by rw [feedAll_singleton, feed_of_events r _ between]; rfl, rfl⟩
  | .octaveUp, r, between, _ =>
      ⟨_, by rw [feedAll_singleton, feed_of_events r _ between]; rfl, rfl⟩
  | .octaveDown, r, between, _ =>
      ⟨_, by rw [feedAll_singleton, feed_of_events r _ between]; rfl, rfl⟩
  | .voice n, r, between, _ =>
      ⟨_, by rw [feedAll_singleton, feed_of_events r _ between]; rfl, rfl⟩
  | .setting derivation, r, between, declared => by
      have opened : r.feed .openParen = .ok { r with phase := .settingName } :=
        feed_of_events r _ between
      refine ⟨_, feedAll_attribute derivation r opened, ?_⟩
      simp [pushSetting, declared, settle, push]
  | @Grammar.Event.sequence tokens _ forms _ items repeated, r, between, declared => by
      obtain ⟨last, read, settled⟩ :=
        feedAll_items items { r with forms := [], outer := r.forms :: r.outer } between declared
      refine feedAll_repeated repeated r
        { r with phase := .bracketed (.sequence forms) } ?_ rfl (fun n => rfl)
      have opened : r.feed .openBracket =
          .ok { r with forms := [], outer := r.forms :: r.outer } :=
        feed_of_events r _ between
      rw [List.cons_append, feedAll_cons, opened]
      simp only [Except.bind]
      rw [feedAll_append_of_ok _ last tokens _ read, feedAll_singleton,
        feed_settle last .closeBracket (resting_of_settle settled rfl) trivial, settled]
      simp [pushAll, feed, event]

theorem feedAll_items {tokens : List Token} {forms : List Form} :
    Items tokens forms → ∀ r : Reader, r.phase = .events → r.declared →
      ∃ last, r.feedAll tokens = .ok last ∧ last.settle = r.pushAll forms
  | .none, r, between, _ =>
      ⟨r, rfl, by rw [settle_of_events r between, pushAll_nil r between]⟩
  | @Items.barline _ forms items, r, between, declared => by
      obtain ⟨last, read, settled⟩ := feedAll_items items r between declared
      refine ⟨r.pushAll forms, ?_, rfl⟩
      rw [feedAll_append_of_ok r last _ _ read, feedAll_singleton,
        feed_settle last .barline (resting_of_settle settled rfl) trivial, settled]
      rfl
  | @Items.event _ _ forms form items derivation, r, between, declared => by
      obtain ⟨middle, read, settled⟩ := feedAll_items items r between declared
      obtain ⟨last, readEvent, settledEvent⟩ :=
        feedAll_event derivation (r.pushAll forms) rfl declared
      refine ⟨last, ?_, ?_⟩
      · rw [feedAll_append_of_ok r middle _ _ read,
          feedAll_settle middle _ (resting_of_settle settled rfl) (begins_event derivation),
          settled, readEvent]
      · rw [settledEvent, pushAll_append_singleton]

end

theorem isPartName_iff (name : String) : isPartName name = true ↔ IsName name := by
  unfold isPartName IsName
  constructor
  · intro letters
    split at letters
    · rename_i first second rest split
      rw [Bool.and_eq_true] at letters
      exact ⟨first, second, rest, split, letters.1, letters.2⟩
    · cases letters
  · rintro ⟨first, second, rest, split, firstLetter, secondLetter⟩
    simp only [split, firstLetter, secondLetter, Bool.and_self]

theorem name_of_isName (r : Reader) (names : List String) (name : String)
    (isName : IsName name) :
    r.name names name = .ok { r with phase := .partNames (name :: names) } := by
  rw [Reader.name, if_pos ((isPartName_iff name).mpr isName)]

/-- Where a part declaration may begin. -/
def Undeclared (r : Reader) : Prop :=
  ∀ name, r.feed (.name name) = r.name [] name

theorem undeclared_start : (start .part).Undeclared :=
  fun _ => rfl

theorem undeclared_of_preamble (r : Reader) (before : r.phase = .preamble) : r.Undeclared := by
  intro name
  simp only [feed, before]

theorem undeclared_of_events (r : Reader) (between : r.phase = .events)
    (score : r.entry = .score) (outermost : r.outer = []) : r.Undeclared := by
  intro name
  simp only [feed, between, event, score, outermost, and_self, ↓reduceIte]

theorem feedAll_names {tokens : List Token} {names : List String}
    (derivation : Names tokens names) (r : Reader) (undeclared : r.Undeclared) :
    r.feedAll tokens = .ok { r with phase := .partNames names.reverse } := by
  induction derivation with
  | one isName => rw [feedAll_singleton, undeclared, name_of_isName r [] _ isName]; rfl
  | more names isName ih =>
      rw [feedAll_append_of_ok _ _ _ _ ih, List.reverse_append]
      simp only [feedAll_cons, feed, Except.bind, name_of_isName _ _ _ isName]
      rfl

theorem feedAll_declaration {tokens : List Token} {decl : PartDecl}
    (derivation : Declaration tokens decl) (r : Reader) (undeclared : r.Undeclared) :
    r.feedAll tokens = .ok { r.push (.part decl) with declared := true } := by
  cases derivation with
  | plain names =>
      rw [feedAll_append_of_ok _ _ _ _ (feedAll_names names r undeclared)]
      simp [feed, Except.bind, push]
  | nicknamed nick names =>
      rw [feedAll_append_of_ok _ _ _ _ (feedAll_names names r undeclared)]
      simp [feed, Except.bind, push]

theorem begins_names {tokens : List Token} {names : List String}
    (derivation : Names tokens names) : Begins tokens := by
  induction derivation with
  | one isName => exact ⟨_, [], rfl, trivial⟩
  | more names isName ih => exact ih.append _

theorem begins_part {tokens : List Token} {forms : List Form}
    (derivation : Grammar.Part tokens forms) : Begins tokens := by
  cases derivation with
  | declared declaration items =>
      apply Begins.append
      cases declaration with
      | plain names | nicknamed nick names => exact (begins_names names).append _

theorem feedAll_part {tokens : List Token} {forms : List Form}
    (derivation : Grammar.Part tokens forms) (r : Reader) (undeclared : r.Undeclared) :
    ∃ last, r.feedAll tokens = .ok last ∧
      last.settle = { r.pushAll forms with declared := true } := by
  cases derivation with
  | @declared tokens more decl forms declaration items =>
      obtain ⟨last, read, settled⟩ :=
        feedAll_items items { r.push (.part decl) with declared := true } rfl rfl
      refine ⟨last, ?_, ?_⟩
      · rw [feedAll_append_of_ok _ _ _ _ (feedAll_declaration declaration r undeclared), read]
      · rw [settled]
        simp [pushAll, push]

theorem feedAll_parts {tokens : List Token} {forms : List Form}
    (derivation : Grammar.Parts tokens forms) (r : Reader) (undeclared : r.Undeclared)
    (score : r.entry = .score) (outermost : r.outer = []) :
    ∃ last, r.feedAll tokens = .ok last ∧
      last.settle = { r.pushAll forms with declared := true } := by
  induction derivation with
  | one part => exact feedAll_part part r undeclared
  | @more tokens more forms further parts part ih =>
      obtain ⟨middle, read, settled⟩ := ih
      obtain ⟨last, readPart, settledPart⟩ :=
        feedAll_part part middle.settle (by
          rw [settled]
          exact undeclared_of_events _ rfl score outermost)
      refine ⟨last, ?_, ?_⟩
      · rw [feedAll_append_of_ok r middle _ _ read,
          feedAll_settle middle _ (resting_of_settle settled rfl) (begins_part part), readPart]
      · rw [settledPart, settled]
        simp [pushAll]

theorem feedAll_attributes {tokens : List Token} {forms : List Form}
    (derivation : Attributes tokens forms) (r : Reader) (before : r.phase = .preamble)
    (undeclared : r.declared = false) :
    r.feedAll tokens = .ok { r with forms := forms.reverse ++ r.forms } := by
  induction derivation with
  | none => rfl
  | more attributes derivation ih =>
      rw [feedAll_append_of_ok _ _ _ _ ih, feedAll_attribute derivation]
      · simp [pushSetting, undeclared, before]
      · simp only [feed, before]

/-- Everything that the grammar derives is read as what it derives. -/
theorem feedAll_of_derives {entry : Entry} {tokens : List Token} {forms : List Form}
    (derivation : Derives entry tokens forms) :
    ∃ last, (start entry).feedAll tokens = .ok last ∧ last.finish = .ok forms := by
  cases derivation with
  | musicData items nonempty =>
      obtain ⟨last, read, settled⟩ := feedAll_items items (start .musicData) rfl rfl
      refine ⟨last, read, ?_⟩
      rw [finish_settle last (resting_of_settle settled rfl), settled]
      simp [finish, pushAll, settle, start, nonempty]
  | part part =>
      obtain ⟨last, read, settled⟩ := feedAll_part part (start .part) undeclared_start
      refine ⟨last, read, ?_⟩
      rw [finish_settle last (resting_of_settle settled rfl), settled]
      simp [finish, pushAll, settle, start]
  | @score tokens more forms further attributes parts =>
      have opening := feedAll_attributes attributes (start .score) rfl rfl
      obtain ⟨last, read, settled⟩ :=
        feedAll_parts parts { start .score with forms := forms.reverse ++ (start .score).forms }
          (undeclared_of_preamble _ rfl) rfl rfl
      refine ⟨last, ?_, ?_⟩
      · rw [feedAll_append_of_ok _ _ _ _ opening, read]
      · rw [finish_settle last (resting_of_settle settled rfl), settled]
        simp [finish, pushAll, settle, start]

end Songline.Reader
