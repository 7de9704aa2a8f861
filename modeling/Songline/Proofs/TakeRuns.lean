import Songline.Proofs.LiveAsTake
import Songline.Proofs.TakeNumbers

set_option autoImplicit false

namespace Songline

namespace Disk

/-- Every path of a file is still one, whatever the file holds. -/
def LosesNone (d after : Disk) : Prop :=
  ∀ path bytes, d.read path = .ok bytes → ∃ bytes', after.read path = .ok bytes'

theorem KeepsFiles.losesNone {d after : Disk} (kept : d.KeepsFiles after) : d.LosesNone after :=
  fun path bytes stored => ⟨bytes, kept path bytes stored⟩

theorem writeWave_keepsFiles {d : Disk} {path : String} (new : d.contains path = false)
    (format : SoundFormat) (samples : Samples) :
    d.KeepsFiles (d.writeWave path format samples).2 := by
  unfold writeWave
  cases written : d.write path (WaveFile.encode format samples) with
  | error e => exact fun _ _ stored => stored
  | ok d' =>
      have kept := (spares_write new written).keepsFiles
      simp only
      split <;> exact kept

end Disk

/-- How directories are made and takes are stored. Either may fail, and leave behind what it has
made so far, but neither touches a file that was there, and a take that is stored can be read. -/
structure Recorder where
  makeDir : String → Disk → Except FileError Unit × Disk
  store : String → SoundFormat → Samples → Disk → Except AudioError Unit × Disk
  makeDir_keeps : ∀ (dir : String) (d : Disk), d.KeepsFiles (makeDir dir d).2
  store_keeps : ∀ (path : String) (format : SoundFormat) (samples : Samples) (d : Disk),
    d.contains path = false → d.KeepsFiles (store path format samples d).2
  read_of_store : ∀ (path : String) (format : SoundFormat) (samples : Samples) (d after : Disk),
    store path format samples d = (.ok (), after) →
      after.read path = .ok (WaveFile.encode format samples)

namespace Recorder

/-- The recorder that fails only where a disk refuses. -/
def ofDisk : Recorder where
  makeDir dir d := d.createDirAll dir
  store path format samples d := d.writeWave path format samples
  makeDir_keeps dir d := (d.spares_createDirAll dir).keepsFiles
  store_keeps _ format samples _ new := Disk.writeWave_keepsFiles new format samples
  read_of_store _ _ _ _ _ := Disk.read_of_writeWave

def write (r : Recorder) (t : Takes) (samples : Samples) (d : Disk) :
    Except AudioError String × Takes × Disk :=
  match r.makeDir t.dir d with
  | (.error e, d) => (.error (.wav (t.dir ++ ": " ++ e.message)), t, d)
  | (.ok (), d) =>
    let n := t.nextNumber d
    let t := { t with next := n + 1 }
    match r.store (Takes.path t.dir n) t.format samples d with
    | (.ok (), d) => (.ok (Takes.path t.dir n), t, d)
    | (.error e, d) => (.error e, t, d)

def writeTake (r : Recorder) (s : Studio) (dir : String) (p : Playback) (volume : Float32) :
    Except AudioError Unit × Studio :=
  let takes := s.takesIn dir
  match r.write takes (s.takeSamples p takes.format volume) s.disk with
  | (.ok path, takes, disk) =>
    (.ok (), { s with takes := some takes, lastTake := some path, disk := disk })
  | (.error e, takes, disk) => (.error e, { s with takes := some takes, disk := disk })

/-- Plays through a studio whose takes a recorder writes. -/
def perform (r : Recorder) (p : Playback) (options : Playback.Options) (s : Studio) :
    Except AudioError Unit × Studio :=
  match options.target with
  | .wav dir => r.writeTake s dir p (Number.clampUnit options.volume)
  | _ => Studio.sink.perform p options s

theorem ofDisk_perform (p : Playback) (options : Playback.Options) (s : Studio) :
    ofDisk.perform p options s = Studio.sink.perform p options s := by
  cases target : options.target with
  | silent => simp only [perform, target]
  | live => simp only [perform, target]
  | wav dir =>
      simp only [perform, Studio.sink, target]
      rfl

/-- What a take does: the answer, and the studio after it. -/
inductive Outcome (r : Recorder) (s : Studio) (t : Takes) (samples : Samples) :
    Except AudioError Unit → Studio → Prop
  /-- Without its directory, no number is used up. -/
  | noDirectory {e : FileError} {disk : Disk}
    (refused : r.makeDir t.dir s.disk = (.error e, disk)) :
    Outcome r s t samples (.error (.wav (t.dir ++ ": " ++ e.message)))
      { s with takes := some t, disk := disk }
  /-- Once there is the directory, the least number that is free is used up. It is found within as
  many steps as there are names in the directory. -/
  | tried {d disk : Disk} {n : Nat} {answer : Except AudioError Unit}
    (made : r.makeDir t.dir s.disk = (.ok (), d))
    (least : IsLeast {k | t.next ≤ k ∧ d.contains (Takes.path t.dir k) = false} n)
    (near : n ≤ t.next + Takes.nameCount d t.dir)
    (stored : r.store (Takes.path t.dir n) t.format samples d = (answer, disk)) :
    Outcome r s t samples answer
      { s with
        takes := some { t with next := n + 1 }
        lastTake := if answer.isOk then some (Takes.path t.dir n) else s.lastTake
        disk := disk }

theorem writeTake_outcome (r : Recorder) (s : Studio) (dir : String) (p : Playback)
    (volume : Float32) :
    r.Outcome s (s.takesIn dir) (s.takeSamples p (s.takesIn dir).format volume)
      (r.writeTake s dir p volume).1 (r.writeTake s dir p volume).2 := by
  simp only [writeTake, write]
  generalize s.takesIn dir = t
  cases ready : r.makeDir t.dir s.disk with
  | mk result d =>
      cases result with
      | error e => exact .noDirectory ready
      | ok =>
          obtain ⟨least, near⟩ := t.nextNumber_spec d
          simp only
          cases stored : r.store (Takes.path t.dir (t.nextNumber d)) t.format
              (s.takeSamples p t.format volume) d with
          | mk answer disk =>
              have outcome := Outcome.tried ready least near stored
              cases answer with
              | error e => exact outcome
              | ok => exact outcome

section Outcome

variable {r : Recorder} {s after : Studio} {t : Takes} {samples : Samples}
  {answer : Except AudioError Unit}

theorem Outcome.keepsFiles (outcome : r.Outcome s t samples answer after) :
    s.disk.KeepsFiles after.disk := by
  cases outcome with
  | noDirectory refused =>
      have kept := r.makeDir_keeps t.dir s.disk
      rw [refused] at kept
      exact kept
  | tried made least near stored =>
      have first := r.makeDir_keeps t.dir s.disk
      have second := r.store_keeps _ t.format samples _ least.1.2
      rw [made] at first
      rw [stored] at second
      exact first.trans second

/-- A take that could not be made leaves the path of the last one. -/
theorem Outcome.lastTake_of_error (outcome : r.Outcome s t samples answer after)
    (failed : answer ≠ .ok ()) : after.lastTake = s.lastTake := by
  cases outcome with
  | noDirectory refused => rfl
  | tried made least near stored =>
      cases answer with
      | ok => exact absurd rfl failed
      | error e => rfl

/-- The numbers go on where the take leaves them, whether it could be made or not. -/
theorem Outcome.takes (outcome : r.Outcome s t samples answer after) :
    ∃ next, after.takes = some { t with next := next } := by
  cases outcome with
  | noDirectory refused => exact ⟨t.next, rfl⟩
  | @tried d disk n answer made least near stored => exact ⟨n + 1, rfl⟩

/-- A take that was made is in a file that was not there. -/
theorem Outcome.new_of_ok (outcome : r.Outcome s t samples (.ok ()) after) :
    ∃ path, after.lastTake = some path ∧ (∀ bytes, s.disk.read path ≠ .ok bytes) ∧
      after.disk.read path = .ok (WaveFile.encode t.format samples) := by
  cases outcome with
  | tried made least near stored =>
      refine ⟨_, rfl, fun bytes there => ?_, r.read_of_store _ _ _ _ _ stored⟩
      have kept := r.makeDir_keeps t.dir s.disk _ bytes there
      rw [made] at kept
      have taken := Disk.contains_of_read kept
      rw [least.1.2] at taken
      cases taken

end Outcome

end Recorder

/-- The takes of a directory are in that directory. -/
theorem Studio.parts_takesIn (s : Studio) (dir : String) :
    Path.parts (s.takesIn dir).dir = Path.parts dir := by
  unfold takesIn
  split
  · split
    · assumption
    · rfl
  · rfl

namespace Recording

/-- What happens to a studio and its disk. -/
inductive Act
  | prepare (p : Playback)
  /-- A playback is played, and written by the recorder if it is for a take. -/
  | play (r : Recorder) (p : Playback) (options : Playback.Options)
  /-- Others leave the disk like this. -/
  | others (disk : Disk)

def Act.dir? : Act → Option String
  | .play _ _ options =>
    match options.target with
    | .wav dir => some dir
    | _ => none
  | _ => none

def act (s : Studio) : Act → Except AudioError Unit × Studio
  | .prepare p => Studio.sink.prepare p s
  | .play r p options => r.perform p options s
  | .others disk => (.ok (), { s with disk := disk })

/-- One act, the studio before it, the answer to it and the studio after it. -/
structure Step where
  before : Studio
  act : Act
  answer : Except AudioError Unit
  after : Studio

def step (s : Studio) (a : Act) : Step := ⟨s, a, (act s a).1, (act s a).2⟩

def steps : Studio → List Act → List Step
  | _, [] => []
  | s, a :: acts => step s a :: steps (step s a).after acts

/-- The path of the take that was made in a step. -/
def Step.made? (step : Step) : Option String :=
  match step.act.dir?, step.answer with
  | some _, .ok () => step.after.lastTake
  | _, _ => none

/-- Others, if it is them who act, leave every path of a file one. -/
def Step.Gentle (step : Step) : Prop :=
  match step.act with
  | .others disk => step.before.disk.LosesNone disk
  | _ => True

theorem mem_steps {s : Studio} {acts : List Act} {now : Step} (inside : now ∈ steps s acts) :
    ∃ before a, now = step before a := by
  induction acts generalizing s with
  | nil => cases inside
  | cons a acts ih =>
      rcases List.mem_cons.mp inside with rfl | later
      · exact ⟨s, a, rfl⟩
      · exact ih later

theorem exists_of_dir? {a : Act} {dir : String} (forTake : a.dir? = some dir) :
    ∃ r p options, a = .play r p options ∧ options.target = .wav dir := by
  cases a with
  | prepare p => cases forTake
  | others disk => cases forTake
  | play r p options =>
      cases target : options.target with
      | wav other =>
          simp only [Act.dir?, target, Option.some.injEq] at forTake
          subst forTake
          exact ⟨r, p, options, rfl, target⟩
      | _ =>
          simp only [Act.dir?, target] at forTake
          cases forTake

theorem outcome_of_take {s : Studio} {a : Act} {dir : String} (forTake : a.dir? = some dir) :
    ∃ (r : Recorder) (samples : Samples),
      r.Outcome s (s.takesIn dir) samples (step s a).answer (step s a).after := by
  obtain ⟨r, p, options, rfl, target⟩ := exists_of_dir? forTake
  have written : act s (.play r p options) =
      r.writeTake s dir p (Number.clampUnit options.volume) := by
    simp only [act, Recorder.perform, target]
  have outcome := r.writeTake_outcome s dir p (Number.clampUnit options.volume)
  rw [← written] at outcome
  exact ⟨r, _, outcome⟩

theorem playLive_studio (s : Studio) (p : Playback) (volume : Float32) :
    ∃ engine, (s.playLive p volume).2 = { s with engine := engine } := by
  simp only [Studio.playLive]
  split
  · exact ⟨s.engine, rfl⟩
  · exact ⟨_, rfl⟩

/-- A playback that is not for a take changes nothing but the engine. -/
theorem perform_elsewhere {r : Recorder} {p : Playback} {options : Playback.Options}
    (elsewhere : (Act.play r p options).dir? = none) (s : Studio) :
    ∃ engine, (r.perform p options s).2 = { s with engine := engine } := by
  cases target : options.target with
  | wav dir =>
      simp only [Act.dir?, target] at elsewhere
      cases elsewhere
  | silent =>
      simp only [Recorder.perform, Studio.sink, target]
      exact ⟨s.engine, rfl⟩
  | live =>
      simp only [Recorder.perform, Studio.sink, target]
      exact playLive_studio s p _

theorem losesNone_step (s : Studio) (a : Act) (gentle : (step s a).Gentle) :
    s.disk.LosesNone (step s a).after.disk := by
  have same : s.disk.LosesNone s.disk := fun _ bytes stored => ⟨bytes, stored⟩
  cases forTake : a.dir? with
  | some dir =>
      obtain ⟨r, samples, outcome⟩ := outcome_of_take (s := s) forTake
      exact outcome.keepsFiles.losesNone
  | none =>
      cases a with
      | others disk => exact gentle
      | prepare p => exact same
      | play r p options =>
          obtain ⟨engine, left⟩ := perform_elsewhere forTake s
          change s.disk.LosesNone (r.perform p options s).2.disk
          rw [left]
          exact same

/-- A take that was made in a step is in a file that was not there before. -/
theorem new_of_made {s : Studio} {a : Act} {path : String} (made : (step s a).made? = some path) :
    (∀ bytes, s.disk.read path ≠ .ok bytes) ∧
      ∃ bytes, (step s a).after.disk.read path = .ok bytes := by
  unfold Step.made? at made
  split at made
  · rename_i dir forTake answered
    obtain ⟨r, samples, outcome⟩ := outcome_of_take (s := s) (a := a) forTake
    rw [answered] at outcome
    obtain ⟨path', last, new, stored⟩ := outcome.new_of_ok
    rw [last] at made
    cases made
    exact ⟨new, _, stored⟩
  · cases made

/-- No take of a run is in a file that was there before it, or in the file of another take. -/
theorem made_apart (s : Studio) (acts : List Act) (gentle : ∀ now ∈ steps s acts, now.Gentle) :
    (∀ path ∈ (steps s acts).filterMap Step.made?, ∀ bytes, s.disk.read path ≠ .ok bytes) ∧
      ((steps s acts).filterMap Step.made?).Nodup := by
  induction acts generalizing s with
  | nil =>
      refine ⟨?_, List.nodup_nil⟩
      intro path inside
      cases inside
  | cons a acts ih =>
      have kept := losesNone_step s a (gentle _ List.mem_cons_self)
      obtain ⟨later, apart⟩ := ih _ fun now inside => gentle now (List.mem_cons_of_mem _ inside)
      have laterNew : ∀ path ∈ (steps (step s a).after acts).filterMap Step.made?,
          ∀ bytes, s.disk.read path ≠ .ok bytes := by
        intro path inside bytes there
        obtain ⟨bytes', there'⟩ := kept path bytes there
        exact later path inside bytes' there'
      cases made : (step s a).made? with
      | none =>
          rw [steps, List.filterMap_cons_none made]
          exact ⟨laterNew, apart⟩
      | some path =>
          obtain ⟨new, bytes, stored⟩ := new_of_made made
          rw [steps, List.filterMap_cons_some made, List.nodup_cons, List.forall_mem_cons]
          exact ⟨⟨new, laterNew⟩, fun again => later path again bytes stored, apart⟩

theorem takes_of_take {s : Studio} {a : Act} {dir : String} (forTake : a.dir? = some dir) :
    ∃ t, (step s a).after.takes = some t ∧ Path.parts t.dir = Path.parts dir := by
  obtain ⟨r, samples, outcome⟩ := outcome_of_take (s := s) forTake
  obtain ⟨next, left⟩ := outcome.takes
  exact ⟨{ s.takesIn dir with next := next }, left, s.parts_takesIn dir⟩

/-- Only a take moves the numbers on. -/
theorem takes_of_other {s : Studio} {a : Act} (other : a.dir? = none) :
    (step s a).after.takes = s.takes := by
  cases a with
  | prepare p => rfl
  | others disk => rfl
  | play r p options =>
      obtain ⟨engine, left⟩ := perform_elsewhere other s
      change (r.perform p options s).2.takes = s.takes
      rw [left]

theorem steps_eq_cons {s : Studio} {acts : List Act} {now : Step} {later : List Step}
    (run : steps s acts = now :: later) :
    ∃ a rest, now = step s a ∧ steps now.after rest = later := by
  cases acts with
  | nil => cases run
  | cons a rest =>
      cases run
      exact ⟨a, rest, rfl, rfl⟩

/-- What is left of a run is a run. -/
theorem steps_suffix {s : Studio} {acts : List Act} {earlier later : List Step}
    (run : steps s acts = earlier ++ later) : ∃ t rest, steps t rest = later := by
  induction earlier generalizing s acts with
  | nil => exact ⟨s, acts, run⟩
  | cons one earlier ih =>
      obtain ⟨a, rest, -, onward⟩ := steps_eq_cons run
      exact ih onward

theorem takes_of_others {s : Studio} {acts : List Act} {idle later : List Step} {now : Step}
    (run : steps s acts = idle ++ now :: later) (other : ∀ one ∈ idle, one.act.dir? = none) :
    now.before.takes = s.takes := by
  induction idle generalizing s acts with
  | nil =>
      obtain ⟨a, rest, rfl, -⟩ := steps_eq_cons run
      rfl
  | cons one idle ih =>
      obtain ⟨here, onward⟩ := List.forall_mem_cons.mp other
      obtain ⟨a, rest, rfl, left⟩ := steps_eq_cons run
      rw [ih left onward]
      exact takes_of_other here

/-- Without a take before, numbers begin with 1. -/
theorem next_takesIn_first {s : Studio} {acts : List Act} {idle later : List Step} {now : Step}
    (run : steps s acts = idle ++ now :: later) (other : ∀ step ∈ idle, step.act.dir? = none)
    (fresh : s.takes = none) (dir : String) : (now.before.takesIn dir).next = 1 := by
  have kept := takes_of_others run other
  rw [fresh] at kept
  unfold Studio.takesIn
  rw [kept]
  rfl

/-- The numbers of a directory go on after its last take, unless the last take of all was in another
directory: then they begin again. -/
theorem next_takesIn {s : Studio} {acts : List Act} {earlier idle later : List Step}
    {one now : Step} {last : String}
    (run : steps s acts = earlier ++ one :: (idle ++ now :: later))
    (take : one.act.dir? = some last) (other : ∀ step ∈ idle, step.act.dir? = none)
    (dir : String) :
    ∃ t, one.after.takes = some t ∧ (now.before.takesIn dir).next =
      if Path.parts last = Path.parts dir then t.next else 1 := by
  obtain ⟨before, acts, rest⟩ := steps_suffix run
  obtain ⟨a, acts, rfl, onward⟩ := steps_eq_cons rest
  have forTake : a.dir? = some last := take
  obtain ⟨t, left, same⟩ := takes_of_take (s := before) forTake
  refine ⟨t, left, ?_⟩
  have kept := takes_of_others onward other
  rw [left] at kept
  unfold Studio.takesIn
  rw [kept, ← same]
  simp only
  split <;> rfl

/-- Takes stay apart, whatever others do on the disk meanwhile and whichever takes cannot be made.
Each is written in its directory to the least number that is free, counting from the one after the
last take if that was in the same directory and from 1 if not, and changes no file that was there
before; one that cannot be made leaves the path of the last take as it was. If others remove no
file, then no two takes of a run have the same path. The recorder may be the disk itself, as it is
outside of these runs. -/
theorem takes_apart (s : Studio) (acts : List Act) :
    (∀ now ∈ steps s acts, ∀ (r : Recorder) (p : Playback) (options : Playback.Options)
      (dir : String), now.act = .play r p options → options.target = .wav dir →
        let takes := now.before.takesIn dir
        let samples := now.before.takeSamples p takes.format (Number.clampUnit options.volume)
        Path.parts takes.dir = Path.parts dir ∧
        r.Outcome now.before takes samples now.answer now.after ∧
        now.before.disk.KeepsFiles now.after.disk ∧
        (now.answer ≠ .ok () → now.after.lastTake = now.before.lastTake)) ∧
    (∀ (idle later : List Step) (now : Step) (dir : String),
      steps s acts = idle ++ now :: later → (∀ step ∈ idle, step.act.dir? = none) →
        s.takes = none → (now.before.takesIn dir).next = 1) ∧
    (∀ (earlier idle later : List Step) (one now : Step) (last dir : String),
      steps s acts = earlier ++ one :: (idle ++ now :: later) → one.act.dir? = some last →
      (∀ step ∈ idle, step.act.dir? = none) →
        ∃ t, one.after.takes = some t ∧ (now.before.takesIn dir).next =
          if Path.parts last = Path.parts dir then t.next else 1) ∧
    ((∀ now ∈ steps s acts, now.Gentle) → ((steps s acts).filterMap Step.made?).Nodup) ∧
    ∀ (p : Playback) (options : Playback.Options) (s : Studio),
      Recorder.ofDisk.perform p options s = Studio.sink.perform p options s := by
  refine ⟨?_, fun idle later now dir run other fresh => next_takesIn_first run other fresh dir,
    fun earlier idle later one now last dir run take other => next_takesIn run take other dir,
    fun gentle => (made_apart s acts gentle).2, Recorder.ofDisk_perform⟩
  intro now inside r p options dir played target takes samples
  obtain ⟨before, a, rfl⟩ := mem_steps inside
  have outcome := r.writeTake_outcome before dir p (Number.clampUnit options.volume)
  obtain rfl : a = .play r p options := played
  simp only [step, act, Recorder.perform, target]
  exact ⟨before.parts_takesIn dir, outcome, outcome.keepsFiles, outcome.lastTake_of_error⟩

end Recording

end Songline
