import Songline.Proofs.Additions

set_option autoImplicit false

namespace Songline

variable {World : Type}

namespace Sink

/-- A call of a sink, and how it ended. -/
inductive Call
  | prepare (playback : Playback) (result : Except AudioError Unit)
  | perform (playback : Playback) (options : Playback.Options) (result : Except AudioError Unit)

def Call.error? : Call → Option AudioError
  | prepare _ (.error e) => some e
  | perform _ _ (.error e) => some e
  | _ => none

/-- A sink that keeps a log of its calls. -/
def recorded (sink : Sink World) : Sink (World × List Call) where
  prepare playback := fun (w, log) =>
    let (result, w) := sink.prepare playback w
    (result, w, log ++ [.prepare playback result])
  perform playback options := fun (w, log) =>
    let (result, w) := sink.perform playback options w
    (result, w, log ++ [.perform playback options result])

/-- Which calls of a sink it takes to play something, how that ends, and the world after it. -/
inductive Plays (sink : Sink World) (options : Playback.Options) (playback : Playback) (w : World) :
    List Call → Except AudioError Unit → World → Prop
  | unprepared {e : AudioError} {after : World} (load : options.loadInstruments = true)
      (failed : sink.prepare playback w = (.error e, after)) :
      Plays sink options playback w [.prepare playback (.error e)] (.error e) after
  | prepared {result : Except AudioError Unit} {ready after : World}
      (load : options.loadInstruments = true)
      (succeeded : sink.prepare playback w = (.ok (), ready))
      (performed : sink.perform playback options ready = (result, after)) :
      Plays sink options playback w [.prepare playback (.ok ()), .perform playback options result]
        result after
  | unloaded {result : Except AudioError Unit} {after : World}
      (skip : options.loadInstruments = false)
      (performed : sink.perform playback options w = (result, after)) :
      Plays sink options playback w [.perform playback options result] result after

theorem exists_plays (sink : Sink World) (options : Playback.Options) (playback : Playback)
    (w : World) : ∃ calls result after, Plays sink options playback w calls result after := by
  cases load : options.loadInstruments with
  | true =>
      cases prepared : sink.prepare playback w with
      | mk result ready =>
          cases result with
          | error e => exact ⟨_, _, _, .unprepared load prepared⟩
          | ok done => exact ⟨_, _, _, .prepared load prepared rfl⟩
  | false => exact ⟨_, _, _, .unloaded load rfl⟩

namespace Plays

variable {sink : Sink World} {options : Playback.Options} {playback : Playback} {w after : World}
  {calls : List Call} {result : Except AudioError Unit}

/-- Playing fails if and only if a call does, and with its error. -/
theorem error_iff (plays : Plays sink options playback w calls result after) (e : AudioError) :
    result = .error e ↔ ∃ call ∈ calls, call.error? = some e := by
  cases plays with
  | unprepared load failed => simp [Call.error?]
  | prepared load succeeded performed => cases result <;> simp [Call.error?]
  | unloaded skip performed => cases result <;> simp [Call.error?]

/-- The log shows the calls, and has no say in what is played. -/
theorem recorded (plays : Plays sink options playback w calls result after) (log : List Call) :
    Plays sink.recorded options playback (w, log) calls result (after, log ++ calls) := by
  cases plays with
  | unprepared load failed =>
      apply Plays.unprepared load
      simp only [Sink.recorded, failed]
  | @prepared result ready after load succeeded performed =>
      let first := log ++ [.prepare playback (.ok ())]
      have succeeds : sink.recorded.prepare playback (w, log) = (.ok (), ready, first) := by
        simp only [Sink.recorded, succeeded, first]
      have performs : sink.recorded.perform playback options (ready, first) =
          (result, after, first ++ [.perform playback options result]) := by
        simp only [Sink.recorded, performed]
      rw [List.append_assoc] at performs
      exact .prepared load succeeds performs
  | unloaded skip performed =>
      apply Plays.unloaded skip
      simp only [Sink.recorded, performed]

/-- Events are handed over in this way. -/
theorem dispatch {events : List Event} {score : Score}
    (plays : Plays sink options (.ofEvents events score) w calls result after) :
    sink.dispatch options events score w =
      (result.map fun () => .ofEvents events score, after) := by
  cases plays with
  | unprepared load failed =>
      simp only [Sink.dispatch, load, failed, ↓reduceIte]
      rfl
  | prepared load succeeded performed =>
      simp only [Sink.dispatch, load, succeeded, performed, ↓reduceIte]
      cases result <;> rfl
  | unloaded skip performed =>
      simp only [Sink.dispatch, skip, performed, Bool.false_eq_true, ↓reduceIte]
      cases result <;> rfl

end Plays

end Sink

namespace Session

/-- How far a turn gets. -/
inductive Stage
  | skipped
  | unread
  | refused
  | evaluated
deriving DecidableEq

/-- The course of a turn: how far it gets, the calls of its sink, its answer, and the session and
the world after it. -/
inductive Course (s : Session) (sink : Sink World) (options : Playback.Options) (line : String)
    (w : World) :
    Stage → List Sink.Call → Except TurnError (Option Turn) → Session → World → Prop
  | skipped (silent : isSilent (Text.trim line) = true) :
      Course s sink options line w .skipped [] (.ok none) s w
  | unread {failure : ReadingFailure} (loud : isSilent (Text.trim line) = false)
      (unread : Grammar.standard.read (Text.trim line) = .error failure) :
      Course s sink options line w .unread [] (.error (.reading failure)) s w
  | refused {entry : Entry} {forms : List Form} {e : ScoreError}
      (loud : isSilent (Text.trim line) = false)
      (read : Grammar.standard.read (Text.trim line) = .ok (entry, forms))
      (refused : s.draft.evaluate entry forms = .error e) :
      Course s sink options line w .refused [] (.error (.evaluation e)) { s with context := entry }
        w
  | evaluated {entry : Entry} {added : List Event} {t : Session} {calls : List Sink.Call}
      {result : Except AudioError Unit} {after : World}
      (evaluated : s.evaluateLine line = (.ok (some ⟨entry, added⟩), t))
      (history : t.history = s.history ++ [Text.trim line])
      (plays : sink.Plays options (.ofEvents (Event.normalize added) t.snapshot) w calls result
        after) :
      Course s sink options line w .evaluated calls
        ((result.mapError .audio).map fun () =>
          some ⟨entry, added, .ofEvents (Event.normalize added) t.snapshot⟩) t after

theorem exists_course (s : Session) (sink : Sink World) (options : Playback.Options)
    (line : String) (w : World) :
    ∃ stage calls answer t after, Course s sink options line w stage calls answer t after := by
  obtain ⟨answer, t, ends, outcome⟩ := exists_outcome s line
  cases outcome with
  | silent silent => exact ⟨_, _, _, _, _, .skipped silent⟩
  | unread loud unread => exact ⟨_, _, _, _, _, .unread loud unread⟩
  | refused loud read refused => exact ⟨_, _, _, _, _, .refused loud read refused⟩
  | added loud read evaluated =>
      obtain ⟨calls, result, after, plays⟩ := sink.exists_plays options _ w
      exact ⟨_, _, _, _, _, .evaluated ends rfl plays⟩

def Stage.ofAnswer : Except TurnError (Option Turn) → Stage
  | .ok none => .skipped
  | .error (.reading _) => .unread
  | .error (.evaluation _) => .refused
  | .error (.audio _) | .ok (some _) => .evaluated

namespace Course

variable {s t : Session} {sink : Sink World} {options : Playback.Options} {line : String}
  {w after : World} {stage : Stage} {calls : List Sink.Call}
  {answer : Except TurnError (Option Turn)}

/-- A turn takes this course. -/
theorem turn (course : Course s sink options line w stage calls answer t after) :
    s.turn sink options line w = (answer, t, after) := by
  unfold Session.turn
  cases course with
  | skipped silent => simp only [(Outcome.silent silent).eq]
  | unread loud unread => simp only [(Outcome.unread loud unread).eq]
  | refused loud read refused => simp only [(Outcome.refused loud read refused).eq]
  | @evaluated _ _ _ _ result _ evaluated history plays =>
      simp only [evaluated, plays.dispatch]
      cases result <;> rfl

/-- The answer tells how far a turn got. -/
theorem stage_eq (course : Course s sink options line w stage calls answer t after) :
    stage = .ofAnswer answer := by
  cases course with
  | skipped silent => rfl
  | unread loud unread => rfl
  | refused loud read refused => rfl
  | @evaluated _ _ _ _ result _ evaluated history plays => cases result <;> rfl

/-- An answer is an error of the sink if and only if a call ended with it. -/
theorem audio_iff (course : Course s sink options line w stage calls answer t after)
    (e : AudioError) : answer = .error (.audio e) ↔ ∃ call ∈ calls, call.error? = some e := by
  cases course with
  | skipped silent => simp
  | unread loud unread => simp
  | refused loud read refused => simp
  | @evaluated _ _ _ _ result _ evaluated history plays =>
      rw [← plays.error_iff]
      cases result with
      | error e' => simp [Except.mapError, Except.map]
      | ok done => simp [Except.mapError, Except.map]

/-- The log of a sink shows the calls of a turn. -/
theorem recorded (course : Course s sink options line w stage calls answer t after)
    (log : List Sink.Call) :
    Course s sink.recorded options line (w, log) stage calls answer t (after, log ++ calls) := by
  cases course with
  | skipped silent =>
      rw [List.append_nil]
      exact .skipped silent
  | unread loud unread =>
      rw [List.append_nil]
      exact .unread loud unread
  | refused loud read refused =>
      rw [List.append_nil]
      exact .refused loud read refused
  | evaluated evaluated history plays => exact .evaluated evaluated history (plays.recorded log)

end Course

/-- A turn takes one course only, with the calls that a log of its sink shows, and its answer is an
error of the sink if and only if one of them failed. The lines alone decide what a session goes
through: whatever sinks and options they are given, the sessions agree after every line. -/
theorem turn_course {Other : Type} (s : Session) :
    (∀ (sink : Sink World) options line w log, ∃! stage, ∃ calls answer t after,
      s.turn sink options line w = (answer, t, after) ∧
        s.turn sink.recorded options line (w, log) = (answer, t, after, log ++ calls) ∧
        Course s sink options line w stage calls answer t after ∧
        ∀ e, answer = .error (.audio e) ↔ ∃ call ∈ calls, call.error? = some e) ∧
      ∀ (ops : List (Operation World)) (others : List (Operation Other)),
        ops.map Operation.line? = others.map Operation.line? → ∀ w v n,
          (s.operateAll w (ops.take n)).1 = (s.operateAll v (others.take n)).1 := by
  refine ⟨?_, ?_⟩
  · intro sink options line w log
    obtain ⟨stage, calls, answer, t, after, course⟩ := exists_course s sink options line w
    refine ⟨stage, ⟨calls, answer, t, after, course.turn, (course.recorded log).turn, course,
      course.audio_iff⟩, ?_⟩
    -- another course would have the same answer, which tells the stage
    rintro stage' ⟨calls', answer', t', after', turned, -, course', -⟩
    have same := course.turn.symm.trans turned
    cases same
    rw [course.stage_eq, course'.stage_eq]
  · intro ops others lines w v n
    rw [operateAll_session, operateAll_session, List.map_take, List.map_take, lines]

/-- The lines of `chorus`, some for other sinks, one with its instruments left as they are, and one
for none. -/
def unheard : List (Operation Unit) :=
  [.evaluate "piano: V1: c V2: c V0:", .turn refusing .silent "piano: q",
    .turn hearing .silent "e (vol 300)", .turn hearing ⟨.live, false, 0.5⟩ "e/g"]

theorem turn_course_chorus :
    chorus.map Operation.line? = unheard.map Operation.line? ∧
      ∀ n, (fresh.operateAll () (chorus.take n)).1 = (fresh.operateAll () (unheard.take n)).1 := by
  have lines : chorus.map Operation.line? = unheard.map Operation.line? := rfl
  obtain ⟨-, agree⟩ := turn_course fresh
  exact ⟨lines, agree chorus unheard lines () ()⟩

end Session

end Songline
