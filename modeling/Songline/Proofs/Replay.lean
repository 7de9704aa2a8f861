import Songline.Proofs.AddedEvents
import Songline.Proofs.DraftGrowth
import Songline.Proofs.FileContents
import Songline.Proofs.SessionRuns
import Songline.Proofs.TextLines
import Songline.Session.Command

set_option autoImplicit false

namespace Songline.Session

/-- The sessions differ in their context at most. -/
structure SameScore (s t : Session) : Prop where
  draft : s.draft = t.draft
  snapshot : s.snapshot = t.snapshot
  history : s.history = t.history

theorem loadLines_append (s : Session) (number : Nat) (done : Loaded) (xs ys : List String) :
    s.loadLines number done (xs ++ ys) =
      match s.loadLines number done xs with
      | (.error e, t) => (.error e, t)
      | (.ok done, t) => t.loadLines (number + xs.length) done ys := by
  induction xs generalizing s number done with
  | nil => rfl
  | cons x xs ih =>
      simp only [List.cons_append, loadLines, List.length_cons]
      split
      · rfl
      · rw [ih, Nat.add_right_comm, Nat.add_assoc number]
      · rw [ih, Nat.add_right_comm, Nat.add_assoc number]

/-- The history holds lines that can be written and read back, and loading it into a fresh session
gives this one, with every line and every event counted once. -/
structure Replayable (s : Session) : Prop where
  coherent : s.snapshot = s.draft.snapshot
  lines : ∀ l ∈ s.history, Text.IsTrimmedLine l
  replay : ∀ number, ∃ t,
    fresh.loadLines number ⟨0, 0⟩ s.history = (.ok ⟨s.history.length, s.snapshot.events.size⟩, t) ∧
      SameScore t s

theorem replayable_fresh : Replayable fresh where
  coherent := rfl
  lines := fun _ member => absurd member List.not_mem_nil
  replay _ := ⟨fresh, rfl, ⟨rfl, rfl, rfl⟩⟩

/-- The context has no part in it. -/
theorem Replayable.withContext {s : Session} (before : Replayable s) (context : Entry) :
    Replayable { s with context := context } := by
  refine ⟨before.coherent, before.lines, ?_⟩
  intro number
  obtain ⟨t, loaded, same⟩ := before.replay number
  exact ⟨t, loaded, ⟨same.draft, same.snapshot, same.history⟩⟩

/-- A session with the same score takes the same line in the same way. -/
theorem Replayable.added {s : Session} (before : Replayable s) {line : String} {entry : Entry}
    {forms : List Form} {draft : Draft} (oneLine : '\n' ∉ line.toList)
    (loud : isSilent (Text.trim line) = false)
    (read : Grammar.standard.read (Text.trim line) = .ok (entry, forms))
    (evaluated : s.draft.evaluate entry forms = .ok draft) :
    Replayable ⟨entry, draft, draft.snapshot, s.history ++ [Text.trim line]⟩ := by
  refine ⟨rfl, ?_, ?_⟩
  · intro l member
    rcases List.mem_append.mp member with earlier | last
    · exact before.lines l earlier
    · rw [List.mem_singleton.mp last]
      exact Text.trim_isTrimmedLine line oneLine
  · intro number
    obtain ⟨t, loaded, same⟩ := before.replay number
    rw [← same.draft] at evaluated
    rw [← Text.trim_trim] at loud read
    have again := (Outcome.added loud read evaluated).eq
    have counted : s.snapshot.events.size + (t.snapshot.added draft.snapshot).length =
        draft.snapshot.events.size := by
      rw [same.snapshot]
      apply Score.length_added
      rw [before.coherent, ← same.draft]
      exact (Draft.grows_evaluate evaluated).events
    refine ⟨⟨entry, draft, draft.snapshot, t.history ++ [Text.trim line]⟩, ?_, ⟨rfl, rfl, ?_⟩⟩
    · rw [loadLines_append, loaded]
      simp only [loadLines, again, Text.trim_trim, List.length_append, List.length_cons,
        List.length_nil, counted]
    · rw [same.history]

theorem replayable_evaluateLine (s : Session) (line : String) (oneLine : '\n' ∉ line.toList)
    (before : Replayable s) : Replayable (s.evaluateLine line).2 := by
  obtain ⟨answer, after, ends, outcome⟩ := exists_outcome s line
  rw [ends]
  cases outcome with
  | silent silent => exact before
  | unread loud unread => exact before
  | @refused entry forms e loud read refused => exact before.withContext entry
  | added loud read evaluated => exact before.added oneLine loud read evaluated

/-- A blank line is written where there is no history, and loading it does nothing. -/
theorem loadLines_written (s : Session) (before : Replayable s) :
    ∃ t, fresh.load s.saved =
        (.ok ⟨s.history.length, s.snapshot.events.size⟩, t) ∧ SameScore t s := by
  obtain ⟨t, loaded, same⟩ := before.replay 1
  refine ⟨t, ?_, same⟩
  have blank : isSilent (Text.trim "") = true := rfl
  rw [load, saved, Text.lines_intercalate s.history before.lines]
  by_cases empty : s.history = []
  · rw [empty] at loaded ⊢
    simp only [↓reduceIte, loadLines, (Outcome.silent (s := fresh) blank).eq]
    exact loaded
  · rw [if_neg empty]
    exact loaded

/-- Whatever was done with a session, its saved text loads into a fresh one, which then has the same
score. The same holds of every file that the text can be written to. -/
theorem load_saved {World : Type} (ops : List (Operation World)) (w : World)
    (oneLine : ∀ op ∈ ops, op.OneLine) :
    let s := (fresh.operateAll w ops).1
    let loaded : Loaded := ⟨s.history.length, s.snapshot.events.size⟩
    ∃ t, fresh.load s.saved = (.ok loaded, t) ∧
      (∀ path d d', Command.saveTo path s d = .ok d' →
        Command.loadFrom path fresh d' = (.ok loaded, t)) ∧
      t.history = s.history ∧ t.snapshot = s.snapshot ∧ t.draft = s.draft := by
  intro s loaded
  have replayable : Replayable s := operateAll_induction replayable_fresh
    replayable_evaluateLine ops oneLine fresh w replayable_fresh
  obtain ⟨t, read, same⟩ := loadLines_written s replayable
  refine ⟨t, read, ?_, same.history, same.snapshot, same.draft⟩
  intro path d d' written
  have file : d'.readText path = .ok s.saved := by
    unfold Command.saveTo at written
    cases stored : d.write path s.saved.toUTF8 with
    | error e =>
        rw [stored] at written
        cases written
    | ok disk =>
        rw [stored] at written
        cases written
        exact Disk.readText_of_write stored
  simp only [Command.loadFrom, file, read]
  rfl

def refusing : Sink Unit := ⟨fun _ w => (.error .bufferFull, w), fun _ _ w => (.ok (), w)⟩

/-- A fresh start, a line that is evaluated but not heard, one that cannot be read, one that cannot
be evaluated, and one that is carried out. -/
def mixedRun : List (Operation Unit) :=
  [.evaluate "violin: c", .reset, .turn refusing .silent "piano: c d", .evaluate "piano: q",
    .evaluate "e (vol 300)", .turn refusing .silent "  f g "]

theorem load_saved_mixedRun :
    (∀ op ∈ mixedRun, op.OneLine) ∧
      ∃ t, fresh.load "piano: c d\nf g\n" = (.ok ⟨2, 4⟩, t) ∧
        t.history = ["piano: c d", "f g"] ∧ t.draft = (fresh.operateAll () mixedRun).1.draft := by
  have oneLine : ∀ op ∈ mixedRun, op.OneLine := by
    simp [mixedRun, Operation.OneLine]
  obtain ⟨t, loaded, -, history, -, draft⟩ := load_saved mixedRun () oneLine
  have written : (fresh.operateAll () mixedRun).1.saved = "piano: c d\nf g\n" := by
    decide +kernel
  have lines : (fresh.operateAll () mixedRun).1.history = ["piano: c d", "f g"] := by
    decide +kernel
  have notes : (fresh.operateAll () mixedRun).1.snapshot.events.size = 4 := by
    decide +kernel
  rw [written, lines, notes] at loaded
  exact ⟨oneLine, t, loaded, history.trans lines, draft⟩

end Songline.Session
