import Mathlib.Data.List.DropRight
import Songline.Output.Studio
import Songline.Proofs.DeckRuns

set_option autoImplicit false

namespace Songline

/-- There is nothing to be heard any more: not in the mixer, and not in a command that waits. -/
def Engine.Drained (e : Engine) : Prop :=
  e.stream.mixer.unplayed = #[] ∧
    ∀ samples, Mixer.Command.mix samples ∈ e.stream.queue.waiting → samples = #[]

theorem Mixer.unplayed_eq_empty_iff (m : Mixer) : m.unplayed = #[] ↔ m.remaining = 0 := by
  rw [← Array.size_eq_zero_iff, unplayed, Array.size_extract, Nat.min_self, remaining]

/-- An engine is opened with nothing to play. -/
theorem Engine.of_start {device : Option Device} {e : Engine} (opened : start device = .ok e) :
    e.stream = .ofCapacity capacity := by
  cases device with
  | none => cases opened
  | some device =>
      cases fault : device.fault with
      | some fault =>
          rw [start, fault] at opened
          cases opened
      | none =>
          rw [start, fault] at opened
          cases opened
          rfl

/-- A command that is taken waits behind the others. -/
theorem Engine.of_push {e next : Engine} {c : Mixer.Command} (taken : e.push c = .ok next) :
    next.stream.mixer = e.stream.mixer ∧
      next.stream.queue.waiting = e.stream.queue.waiting ++ [c] := by
  unfold push Stream.push? Mixer.Queue.push? at taken
  by_cases room : e.stream.queue.waiting.length < e.stream.queue.capacity
  · rw [if_pos room] at taken
    cases taken
    exact ⟨rfl, rfl⟩
  · rw [if_neg room] at taken
    cases taken

namespace Deck

def Act.isProcess : Act → Bool
  | .process _ => true
  | _ => false

/-- The commands that have been taken since samples were last asked for. -/
def takenSince (log : List (Act × Answer)) : List Mixer.Command :=
  (log.rtakeWhile fun entry => !entry.1.isProcess).filterMap fun
    | (.command c, .taken) => some c
    | _ => none

theorem takenSince_process (log : List (Act × Answer)) (n : Nat) (answer : Answer) :
    takenSince (log ++ [(.process n, answer)]) = [] := by
  rw [takenSince, List.rtakeWhile_concat]
  rfl

theorem takenSince_other (log : List (Act × Answer)) (a : Act) (answer : Answer)
    (other : a.isProcess = false) :
    takenSince (log ++ [(a, answer)]) = takenSince log ++ takenSince [(a, answer)] := by
  have alone : [(a, answer)].rtakeWhile (fun entry => !entry.1.isProcess) = [(a, answer)] := by
    simp [List.rtakeWhile, other]
  simp only [takenSince, List.rtakeWhile_concat, other, alone, Bool.not_false, ↓reduceIte,
    List.filterMap_append]

/-- A studio with an open engine, to which the shell hands commands. -/
def studio : Deck Studio where
  push? s c := s.engine.bind fun engine =>
    match engine.push c with
    | .ok engine => some { s with engine := some engine }
    | .error _ => none
  stop := Studio.stop
  process s n := (s.pump n).getD (#[], s)

/-- How the flag and the queue of a studio stand to what has been done with it. -/
structure Tracks (s : Studio) (engine : Engine) (log : List (Act × Answer)) : Prop where
  isOpen : s.engine = some engine
  pending : s.flags.pending = engine.stream.mixer.remaining
  waiting : engine.stream.queue.waiting = takenSince log

theorem Tracks.act {s : Studio} {engine : Engine} {log : List (Act × Answer)}
    (tracks : Tracks s engine log) (a : Act) :
    ∃ next, Tracks (studio.act s a).2 next (log ++ [(a, (studio.act s a).1)]) := by
  cases a with
  | command c =>
      simp only [Deck.act, studio, tracks.isOpen, Option.bind_some]
      cases pushed : engine.push c with
      | error e =>
          refine ⟨engine, tracks.isOpen, tracks.pending, ?_⟩
          rw [takenSince_other _ _ _ rfl, ← tracks.waiting]
          exact (List.append_nil _).symm
      | ok next =>
          obtain ⟨mixer, waiting⟩ := Engine.of_push pushed
          refine ⟨next, rfl, ?_, ?_⟩
          · rw [mixer]
            exact tracks.pending
          · rw [takenSince_other _ _ _ rfl, ← tracks.waiting]
            exact waiting
  | stop =>
      refine ⟨engine, tracks.isOpen, tracks.pending, ?_⟩
      rw [takenSince_other _ _ _ rfl, ← tracks.waiting]
      exact (List.append_nil _).symm
  | process n =>
      have pumped : (studio.act s (.process n)).2 = ((s.pump n).getD (#[], s)).2 := rfl
      rw [pumped, Studio.pump, tracks.isOpen]
      refine ⟨_, rfl, rfl, ?_⟩
      rw [takenSince_process]
      rfl

theorem tracks_run (acts : List Act) {s : Studio} {engine : Engine} (tracks : Tracks s engine []) :
    ∃ next, Tracks (studio.run acts s).2 next (acts.zip (studio.run acts s).1) := by
  -- The log grows at its end, so the induction goes by the last act.
  induction acts using List.reverseRecOn with
  | nil => exact ⟨engine, tracks⟩
  | append_singleton acts a ih =>
      obtain ⟨next, before⟩ := ih
      rw [run_concat, List.zip_append (length_run studio acts s).symm]
      exact before.act a

/-- A studio that has opened its engine says that it plays exactly if its mixer has something left.
So it says truly that there is nothing left to be heard, unless music has been taken since samples
were last asked for. -/
theorem drained_iff (s : Studio) (engine : Engine) (opened : Engine.start s.device = .ok engine)
    (silent : s.flags.pending = 0) (acts : List Act) :
    let run := studio.run acts { s with engine := some engine }
    ∃ last, run.2.engine = some last ∧
      (run.2.isPlaying = false ↔ last.stream.mixer.unplayed = #[]) ∧
      (last.Drained ↔ run.2.isPlaying = false ∧
        ∀ samples, Mixer.Command.mix samples ∈ takenSince (acts.zip run.1) → samples = #[]) := by
  intro run
  have fresh : engine.stream = .ofCapacity Engine.capacity := Engine.of_start opened
  have begun : Tracks { s with engine := some engine } engine [] := by
    refine ⟨rfl, ?_, ?_⟩
    · rw [fresh]
      exact silent
    · rw [fresh]
      rfl
  obtain ⟨last, tracks⟩ := tracks_run acts begun
  have playing : run.2.isPlaying = false ↔ last.stream.mixer.unplayed = #[] := by
    rw [Mixer.unplayed_eq_empty_iff, ← tracks.pending]
    show (run.2.engine.isSome && decide (run.2.flags.pending > 0)) = false ↔ _
    simp [run, tracks.isOpen]
  refine ⟨last, tracks.isOpen, playing, ?_⟩
  rw [playing, ← tracks.waiting]
  rfl

/-- A studio before a device that works, and the engine that it opens. -/
def rehearsal : Studio × Engine :=
  (.ofSeed 0 (some ⟨⟨44100, 1⟩, none⟩) (.emptyAt []), ⟨.ofCapacity Engine.capacity, ⟨44100, 1⟩⟩)

theorem note_played_out :
    Engine.start rehearsal.1.device = .ok rehearsal.2 ∧ rehearsal.1.flags.pending = 0 ∧
      let run := studio.run [.command (.mix #[0.5]), .process 1]
        { rehearsal.1 with engine := some rehearsal.2 }
      run.2.isPlaying = false ∧ ∃ last, run.2.engine = some last ∧ last.Drained := by
  obtain ⟨last, isOpen, -, drained⟩ :=
    drained_iff rehearsal.1 rehearsal.2 rfl rfl [.command (.mix #[0.5]), .process 1]
  refine ⟨rfl, rfl, rfl, last, isOpen, drained.mpr ⟨rfl, ?_⟩⟩
  intro samples taken
  cases taken

/-- A note has been taken, but the studio says that it does not play: the note waits. -/
theorem waiting_note_not_playing :
    let run := studio.run [.command (.mix #[0.5])] { rehearsal.1 with engine := some rehearsal.2 }
    run.1 = [.taken] ∧ run.2.isPlaying = false ∧
      ∃ last, run.2.engine = some last ∧ ¬ last.Drained := by
  refine ⟨rfl, rfl, _, rfl, ?_⟩
  intro drained
  have missing : (#[0.5] : Samples) = #[] := drained.2 #[0.5] (List.mem_singleton.mpr rfl)
  cases missing

end Deck

end Songline
