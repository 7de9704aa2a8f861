import Songline.Session

set_option autoImplicit false

namespace Songline.Session

/-- The four ways in which a line can end, with its answer and the session after it. -/
inductive Outcome (s : Session) (line : String) :
    Except TurnError (Option Evaluated) → Session → Prop
  | silent (silent : isSilent (Text.trim line) = true) : Outcome s line (.ok none) s
  | unread {failure : ReadingFailure} (loud : isSilent (Text.trim line) = false)
      (unread : Grammar.standard.read (Text.trim line) = .error failure) :
      Outcome s line (.error (.reading failure)) s
  | refused {entry : Entry} {forms : List Form} {e : ScoreError}
      (loud : isSilent (Text.trim line) = false)
      (read : Grammar.standard.read (Text.trim line) = .ok (entry, forms))
      (refused : s.draft.evaluate entry forms = .error e) :
      Outcome s line (.error (.evaluation e)) { s with context := entry }
  | added {entry : Entry} {forms : List Form} {draft : Draft}
      (loud : isSilent (Text.trim line) = false)
      (read : Grammar.standard.read (Text.trim line) = .ok (entry, forms))
      (evaluated : s.draft.evaluate entry forms = .ok draft) :
      Outcome s line (.ok (some ⟨entry, s.snapshot.added draft.snapshot⟩))
        ⟨entry, draft, draft.snapshot, s.history ++ [Text.trim line]⟩

/-- A line ends in one way only. -/
theorem Outcome.eq {s after : Session} {line : String}
    {answer : Except TurnError (Option Evaluated)} (outcome : Outcome s line answer after) :
    s.evaluateLine line = (answer, after) := by
  cases outcome with
  | silent silent => simp only [evaluateLine, silent, ↓reduceIte]
  | unread loud unread =>
      simp only [evaluateLine, loud, Grammar.resolve, unread, Bool.false_eq_true, ↓reduceIte]
  | refused loud read refused =>
      simp only [evaluateLine, loud, Grammar.resolve, read, refused, Bool.false_eq_true,
        ↓reduceIte]
  | added loud read evaluated =>
      simp only [evaluateLine, loud, Grammar.resolve, read, evaluated, Bool.false_eq_true,
        ↓reduceIte]

theorem exists_outcome (s : Session) (line : String) :
    ∃ answer after, s.evaluateLine line = (answer, after) ∧ Outcome s line answer after := by
  have ends : ∃ answer after, Outcome s line answer after := by
    cases loud : isSilent (Text.trim line) with
    | true => exact ⟨_, _, .silent loud⟩
    | false =>
        cases read : Grammar.standard.read (Text.trim line) with
        | error failure => exact ⟨_, _, .unread loud read⟩
        | ok found =>
            cases evaluated : s.draft.evaluate found.1 found.2 with
            | error e => exact ⟨_, _, .refused loud read evaluated⟩
            | ok draft => exact ⟨_, _, .added loud read evaluated⟩
  obtain ⟨answer, after, outcome⟩ := ends
  exact ⟨answer, after, outcome.eq, outcome⟩

/-- Playing has no say in the session. -/
theorem turn_session {World : Type} (s : Session) (sink : Sink World)
    (options : Playback.Options) (line : String) (w : World) :
    (s.turn sink options line w).2.1 = (s.evaluateLine line).2 := by
  unfold turn
  split
  · rename_i evaluated
    rw [evaluated]
  · rename_i evaluated
    rw [evaluated]
  · rename_i evaluated
    rw [evaluated]
    split <;> rfl

/-- What is done with a session. Every line that is played may have a sink of its own. -/
inductive Operation (World : Type)
  | turn (sink : Sink World) (options : Playback.Options) (line : String)
  | evaluate (line : String)
  | reset

def Operation.OneLine {World : Type} : Operation World → Prop
  | .turn _ _ line => '\n' ∉ line.toList
  | .evaluate line => '\n' ∉ line.toList
  | .reset => True

variable {World : Type}

def operate (s : Session) (w : World) : Operation World → Session × World
  | .turn sink options line => (s.turn sink options line w).2
  | .evaluate line => ((s.evaluateLine line).2, w)
  | .reset => (.fresh, w)

def operateAll (s : Session) (w : World) : List (Operation World) → Session × World
  | [] => (s, w)
  | op :: ops => operateAll (s.operate w op).1 (s.operate w op).2 ops

/-- The line of an operation, unless it is a fresh start. -/
def Operation.line? : Operation World → Option String
  | .turn _ _ line => some line
  | .evaluate line => some line
  | .reset => none

/-- The session after a line, or after a fresh start. -/
def after (s : Session) : Option String → Session
  | some line => (s.evaluateLine line).2
  | none => fresh

/-- A line has the same say in the session however it is carried out. -/
theorem operate_session (s : Session) (w : World) (op : Operation World) :
    (s.operate w op).1 = s.after op.line? := by
  cases op with
  | turn sink options line => simp only [operate, Operation.line?, after, turn_session]
  | evaluate line => simp only [operate, Operation.line?, after]
  | reset => simp only [operate, Operation.line?, after]

/-- What a session goes through is up to the lines that it is given. -/
theorem operateAll_session (s : Session) (w : World) (ops : List (Operation World)) :
    (s.operateAll w ops).1 = (ops.map Operation.line?).foldl after s := by
  induction ops generalizing s w with
  | nil => rfl
  | cons op ops ih => rw [operateAll, ih, operate_session, List.map_cons, List.foldl_cons]

/-- What holds of a fresh session and is kept by every line holds after every run. -/
theorem operateAll_induction {P : Session → Prop} (fresh : P .fresh)
    (line : ∀ s line, '\n' ∉ line.toList → P s → P (s.evaluateLine line).2)
    (ops : List (Operation World)) (oneLine : ∀ op ∈ ops, op.OneLine) (s : Session) (w : World)
    (before : P s) : P (s.operateAll w ops).1 := by
  induction ops generalizing s w with
  | nil => exact before
  | cons op ops ih =>
      have rest : ∀ op ∈ ops, op.OneLine :=
        fun op member => oneLine op (List.mem_cons_of_mem _ member)
      have here := oneLine op List.mem_cons_self
      apply ih rest
      cases op with
      | turn sink options text =>
          simp only [operate, turn_session]
          exact line s text here before
      | evaluate text =>
          simp only [operate]
          exact line s text here before
      | reset => exact fresh

end Songline.Session
