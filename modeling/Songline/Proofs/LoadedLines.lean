import Songline.Proofs.Additions

set_option autoImplicit false

namespace Songline.Session

/-- The session after lines have been typed, whatever became of each. -/
def typed (s : Session) : List String → Session
  | [] => s
  | line :: lines => (s.evaluateLine line).2.typed lines

/-- The answers to lines that are typed one after another. -/
def answers (s : Session) : List String → List (Except TurnError (Option Evaluated))
  | [] => []
  | line :: lines => (s.evaluateLine line).1 :: (s.evaluateLine line).2.answers lines

/-- The lines may as well be heard while they are typed. -/
theorem operateAll_typed {World : Type} {ops : List (Operation World)} {lines : List String}
    (typing : ops.map Operation.line? = lines.map some) (s : Session) (w : World) :
    (s.operateAll w ops).1 = s.typed lines := by
  rw [operateAll_session, typing]
  clear typing
  induction lines generalizing s with
  | nil => rfl
  | cons line lines ih => rw [List.map_cons, List.foldl_cons, ih, after, typed]

/-- The session is the other with so many lines and events more. -/
structure GrownBy (counts : Loaded) (s t : Session) : Prop where
  lines : t.history.length = s.history.length + counts.lines
  notes : t.snapshot.events.size = s.snapshot.events.size + counts.notes

theorem grownBy_zero (s : Session) : GrownBy ⟨0, 0⟩ s s := ⟨rfl, rfl⟩

theorem GrownBy.trans {more counts : Loaded} {s t u : Session} (first : GrownBy more s t)
    (later : GrownBy counts t u) :
    GrownBy ⟨more.lines + counts.lines, more.notes + counts.notes⟩ s u := by
  refine ⟨?_, ?_⟩
  · rw [later.lines, first.lines, Nat.add_assoc]
  · rw [later.notes, first.notes, Nat.add_assoc]

def counted : Option Evaluated → Loaded
  | none => ⟨0, 0⟩
  | some evaluated => ⟨1, evaluated.added.length⟩

/-- An event that is there already is not added, so a line adds what the score grows by. -/
theorem grownBy_of_taken {s : Session} (coherent : s.snapshot = s.draft.snapshot) {line : String}
    {evaluated : Option Evaluated} (taken : (s.evaluateLine line).1 = .ok evaluated) :
    GrownBy (counted evaluated) s (s.evaluateLine line).2 := by
  obtain ⟨answer, after, ends, outcome⟩ := exists_outcome s line
  rw [ends] at taken ⊢
  cases outcome with
  | silent silent =>
      cases taken
      exact grownBy_zero s
  | unread loud unread => cases taken
  | refused loud read refused => cases taken
  | @added entry forms draft loud read evaluated =>
      cases taken
      have grown : ∀ e ∈ s.snapshot.events, e ∈ draft.snapshot.events := by
        rw [coherent]
        exact (Draft.grows_evaluate evaluated).events
      refine ⟨?_, ?_⟩
      · simp only [counted, List.length_append, List.length_cons, List.length_nil]
      · simp only [counted, Score.length_added grown]

theorem coherent_evaluateLine {s : Session} (coherent : s.snapshot = s.draft.snapshot)
    (line : String) :
    (s.evaluateLine line).2.snapshot = (s.evaluateLine line).2.draft.snapshot := by
  obtain ⟨answer, after, ends, outcome⟩ := exists_outcome s line
  rw [ends]
  cases outcome with
  | silent | unread | refused => exact coherent
  | added loud read evaluated => rfl

/-- A line that fails ends the loading, and one that is taken is counted. -/
theorem loadLines_cons (s : Session) (number : Nat) (done : Loaded) (line : String)
    (lines : List String) :
    s.loadLines number done (line :: lines) =
      match s.evaluateLine line with
      | (.error e, t) => (.error (number, e), t)
      | (.ok evaluated, t) =>
        t.loadLines (number + 1)
          ⟨done.lines + (counted evaluated).lines, done.notes + (counted evaluated).notes⟩
          lines := by
  rw [loadLines]
  rcases s.evaluateLine line with ⟨e | evaluated | evaluated, t⟩ <;> rfl

/-- Lines are loaded up to the first that fails. -/
theorem loadLines_stops {taken : List (Option Evaluated)} {e : TurnError}
    {rest : List (Except TurnError (Option Evaluated))} {s : Session} {lines : List String}
    (answered : s.answers lines = taken.map .ok ++ .error e :: rest) (number : Nat)
    (done : Loaded) :
    s.loadLines number done lines =
      (.error (number + taken.length, e), s.typed (lines.take (taken.length + 1))) := by
  induction taken generalizing s lines number done with
  | nil =>
      cases lines with
      | nil => cases answered
      | cons line lines =>
          obtain ⟨fails, -⟩ := List.cons.inj answered
          rw [loadLines_cons]
          rcases evaluated : s.evaluateLine line with ⟨answer, t⟩
          rw [evaluated] at fails
          cases fails
          simp only [List.length_nil, Nat.zero_add, List.take_succ_cons, List.take_zero, typed,
            evaluated, Nat.add_zero]
  | cons first taken ih =>
      cases lines with
      | nil => cases answered
      | cons line lines =>
          obtain ⟨here, later⟩ := List.cons.inj answered
          rw [loadLines_cons]
          rcases evaluated : s.evaluateLine line with ⟨answer, t⟩
          rw [evaluated] at here later
          cases here
          simp only [ih later, List.length_cons, List.take_succ_cons, typed, evaluated,
            Nat.add_assoc, Nat.add_comm 1]

/-- Lines none of which fails are all loaded, and counted by how much the session grows. -/
theorem loadLines_finishes {taken : List (Option Evaluated)} {s : Session}
    (coherent : s.snapshot = s.draft.snapshot) {lines : List String}
    (answered : s.answers lines = taken.map .ok) (number : Nat) (done : Loaded) :
    ∃ counts, GrownBy counts s (s.typed lines) ∧ s.loadLines number done lines =
      (.ok ⟨done.lines + counts.lines, done.notes + counts.notes⟩, s.typed lines) := by
  induction taken generalizing s lines number done with
  | nil =>
      cases lines with
      | nil => exact ⟨⟨0, 0⟩, grownBy_zero s, rfl⟩
      | cons line lines => cases answered
  | cons first taken ih =>
      cases lines with
      | nil => cases answered
      | cons line lines =>
          obtain ⟨here, later⟩ := List.cons.inj answered
          obtain ⟨counts, grown, loaded⟩ := ih (coherent_evaluateLine coherent line) later
            (number + 1)
            ⟨done.lines + (counted first).lines, done.notes + (counted first).notes⟩
          rw [typed, loadLines_cons]
          refine ⟨_, (grownBy_of_taken coherent here).trans grown, ?_⟩
          rcases evaluated : s.evaluateLine line with ⟨answer, t⟩
          rw [evaluated] at here loaded
          cases here
          simp only [loaded, Nat.add_assoc]

/-- Some answers are all without failure, or one of them is the first failure. -/
theorem takes_all_or_fails {ε α : Type} (answers : List (Except ε α)) :
    (∃ taken : List α, answers = taken.map .ok) ∨
      ∃ (taken : List α) (e : ε) (rest : List (Except ε α)),
        answers = taken.map .ok ++ .error e :: rest := by
  induction answers with
  | nil => exact .inl ⟨[], rfl⟩
  | cons answer answers ih =>
      cases answer with
      | error e => exact .inr ⟨[], e, answers, rfl⟩
      | ok first =>
          rcases ih with ⟨taken, rfl⟩ | ⟨taken, e, rest, rfl⟩
          · exact .inl ⟨first :: taken, rfl⟩
          · exact .inr ⟨first :: taken, e, rest, rfl⟩

/-- The two ways in which loading lines from a path ends. Lines are numbered from 1, whatever is on
them. -/
inductive Loading (path : String) (s : Session) (lines : List String) :
    Except CommandError Loaded × Session → Prop
  | stopped {taken : List (Option Evaluated)} {e : TurnError}
      {rest : List (Except TurnError (Option Evaluated))}
      (answered : s.answers lines = taken.map .ok ++ .error e :: rest) :
      Loading path s lines
        (.error (.loading path (taken.length + 1) e), s.typed (lines.take (taken.length + 1)))
  | finished {taken : List (Option Evaluated)} {counts : Loaded}
      (answered : s.answers lines = taken.map .ok) (grown : GrownBy counts s (s.typed lines)) :
      Loading path s lines (.ok counts, s.typed lines)

theorem loading_loadFrom {s : Session} (coherent : s.snapshot = s.draft.snapshot)
    {path text : String} {d : Disk} (file : d.readText path = .ok text) :
    Loading path s (Text.lines text) (Command.loadFrom path s d) := by
  unfold Command.loadFrom load
  rw [file]
  simp only
  rcases takes_all_or_fails (s.answers (Text.lines text)) with
    ⟨taken, answered⟩ | ⟨taken, e, rest, answered⟩
  · obtain ⟨counts, grown, loaded⟩ := loadLines_finishes coherent answered 1 ⟨0, 0⟩
    rw [loaded, Nat.zero_add, Nat.zero_add]
    exact .finished answered grown
  · rw [loadLines_stops answered, Nat.add_comm]
    exact .stopped answered

/-- A file is loaded into a session as its lines are typed there, up to the first that fails: that
one is named, and the session is as after typing it. If none fails, the lines and notes reported are
those by which history and score have grown. Whether the lines are heard makes no difference. -/
theorem load_as_typed {World Other : Type} (ops : List (Operation World)) (w : World)
    {path text : String} {d : Disk} (file : d.readText path = .ok text) :
    let s := (fresh.operateAll w ops).1
    Loading path s (Text.lines text) (Command.loadFrom path s d) ∧
      ∀ (typing : List (Operation Other)) n,
        typing.map Operation.line? = ((Text.lines text).take n).map some →
          ∀ v, (s.operateAll v typing).1 = s.typed ((Text.lines text).take n) := by
  intro s
  have coherent : s.snapshot = s.draft.snapshot := (tallied_fresh.run ops w).coherent
  exact ⟨loading_loadFrom coherent file, fun _ _ typing v => operateAll_typed typing s v⟩

/-- A comment, a note, a blank line, a volume that there is not, and a note behind it. -/
def tune : String := "# up\nd\n\ne (vol 300)\nf\n"

/-- The lines of the tune that are taken, and the one that is not. Two of them are heard. -/
def tuneTyped : List (Operation Unit) :=
  [.evaluate "# up", .turn hearing .silent "d", .evaluate "", .turn refusing .silent "e (vol 300)"]

theorem load_as_typed_tune :
    let s := (fresh.operateAll () [Operation.evaluate "piano: c"]).1
    let d : Disk := ⟨.dir [("tune", .file tune.toUTF8)], []⟩
    let loaded := Command.loadFrom "tune" s d
    d.readText "tune" = .ok tune ∧
      Loading "tune" s ["# up", "d", "", "e (vol 300)", "f"] loaded ∧
      (s.operateAll () tuneTyped).1 = s.typed ["# up", "d", "", "e (vol 300)"] ∧
      loaded.1 = .error (.loading "tune" 4 (.evaluation (.outOfRange "vol" 300.0))) ∧
      loaded.2.history = ["piano: c", "d"] ∧ loaded.2.context = .musicData := by
  intro s d loaded
  have file : d.readText "tune" = .ok tune := by
    decide +kernel
  have lines : Text.lines tune = ["# up", "d", "", "e (vol 300)", "f"] := by
    decide +kernel
  obtain ⟨loading, typing⟩ := load_as_typed [Operation.evaluate "piano: c"] () file
  have typed := typing tuneTyped 4 (by rw [lines]; rfl) ()
  rw [lines] at loading typed
  exact ⟨file, loading, typed, by decide +kernel, by decide +kernel, by decide +kernel⟩

end Songline.Session
