import Songline.Output.Studio

set_option autoImplicit false

/- Live playbacks in the queue of the device. Each is handed over as two commands, a volume and the
samples it is for, and the queue takes them one by one. As it has room for an even number and only
such pairs are put into it, it never takes one of the two without the other. -/
namespace Songline

/-- A playback as the device is to play it. -/
structure Render where
  volume : Float32
  samples : Samples

def Render.commands (r : Render) : List Mixer.Command := [.volume r.volume, .mix r.samples]

def Engine.withRender (e : Engine) (r : Render) : Engine :=
  { e with stream :=
    { e.stream with queue :=
      { e.stream.queue with waiting := e.stream.queue.waiting ++ r.commands } } }

namespace Studio

/-- What happens to a studio. -/
inductive Act
  | prepare (p : Playback)
  | perform (p : Playback) (options : Playback.Options)
  | stop
  /-- The device asks for so many samples. -/
  | pump (n : Nat)

def act (s : Studio) : Act → Except AudioError Unit × Studio
  | .prepare p => sink.prepare p s
  | .perform p options => sink.perform p options s
  | .stop => (.ok (), s.stop)
  | .pump n => (.ok (), ((s.pump n).map (·.2)).getD s)

/-- What an engine is to play of a playback. -/
def renderFor (s : Studio) (e : Engine) (p : Playback) (options : Playback.Options) : Render :=
  ⟨Number.clampUnit options.volume, p.mixdown s.rack e.format⟩

/-- The renders that were handed over since the device last asked for samples, after one act more:
a live playback that was not refused is one. -/
def handedOver (s : Studio) (renders : List Render) (a : Act) : List Render :=
  match a, s.engine with
  | .pump _, _ => []
  | .perform p options, some e =>
    if options.target = .live ∧ (s.act a).1.isOk then renders ++ [s.renderFor e p options]
    else renders
  | _, _ => renders

/-- A studio after some acts, with the renders handed over since the device last asked for samples,
which are the given ones at first. -/
def course : List Act → Studio → List Render → Studio × List Render
  | [], s, renders => (s, renders)
  | a :: acts, s, renders => course acts (s.act a).2 (s.handedOver renders a)

/-- In the queue of an engine wait some renders, each of them whole. -/
structure Queues (s : Studio) (e : Engine) (renders : List Render) : Prop where
  isOpen : s.engine = some e
  queue : e.stream.queue = ⟨Engine.capacity, renders.flatMap Render.commands⟩
  room : 2 * renders.length ≤ Engine.capacity

theorem length_commands (renders : List Render) :
    (renders.flatMap Render.commands).length = 2 * renders.length := by
  induction renders with
  | nil => rfl
  | cons r renders ih =>
      rw [List.flatMap_cons, List.length_append, ih, List.length_cons]
      show 2 + 2 * renders.length = 2 * (renders.length + 1)
      omega

section Queued

variable {s : Studio} {e : Engine} {renders : List Render}

/-- A queue that is full takes no part of a render, and nothing else changes either. -/
theorem Queues.playLive_of_full (queues : Queues s e renders)
    (full : 2 * renders.length = Engine.capacity) (p : Playback) (volume : Float32) :
    s.playLive p volume = (.error .bufferFull, s) := by
  have noRoom : ¬ (renders.flatMap Render.commands).length < Engine.capacity := by
    rw [length_commands]
    omega
  have isOpen := queues.isOpen
  have same : { s with engine := some e } = s := by rw [← isOpen]
  simp only [playLive, openEngine, isOpen, Engine.mix, Engine.push, Stream.push?,
    Mixer.Queue.push?, queues.queue, noRoom, ↓reduceIte, Option.map_none, same]

/-- A queue that is not full has room for two commands, since it holds an even number. -/
theorem Queues.playLive_of_room (queues : Queues s e renders)
    (spare : 2 * renders.length < Engine.capacity) (p : Playback) (volume : Float32) :
    s.playLive p volume =
      (.ok (), { s with engine := some (e.withRender ⟨volume, p.mixdown s.rack e.format⟩) }) := by
  have first : (renders.flatMap Render.commands).length < Engine.capacity := by
    rw [length_commands]
    exact spare
  have second : ∀ c : Mixer.Command,
      (renders.flatMap Render.commands ++ [c]).length < Engine.capacity := by
    intro c
    rw [List.length_append, length_commands, List.length_singleton]
    simp only [Engine.capacity] at spare ⊢
    omega
  simp only [playLive, openEngine, queues.isOpen, Engine.mix, Engine.push, Stream.push?,
    Mixer.Queue.push?, queues.queue, first, second, ↓reduceIte, Option.map_some,
    List.append_assoc, Engine.withRender, Render.commands, List.singleton_append]

theorem Queues.withRender (queues : Queues s e renders) (r : Render)
    (spare : 2 * renders.length < Engine.capacity) :
    Queues { s with engine := some (e.withRender r) } (e.withRender r) (renders ++ [r]) where
  isOpen := rfl
  queue := by
    simp only [Engine.withRender, queues.queue, List.flatMap_append, List.flatMap_singleton]
  room := by
    rw [List.length_append, List.length_singleton]
    simp only [Engine.capacity] at spare ⊢
    omega

/-- What does not touch the engine leaves the queue as it was. -/
theorem Queues.of_engine (queues : Queues s e renders) {next : Studio}
    (same : next.engine = s.engine) : Queues next e renders :=
  ⟨same.trans queues.isOpen, queues.queue, queues.room⟩

theorem engine_writeTake (s : Studio) (dir : String) (p : Playback) (volume : Float32) :
    (s.writeTake dir p volume).2.engine = s.engine := by
  simp only [writeTake]
  split <;> rfl

/-- A playback that goes elsewhere than to the device leaves the engine alone. -/
theorem engine_perform_elsewhere (s : Studio) (p : Playback) (options : Playback.Options)
    (elsewhere : options.target ≠ .live) : (sink.perform p options s).2.engine = s.engine := by
  cases target : options.target with
  | live => exact absurd target elsewhere
  | silent => simp only [sink, target]
  | wav dir =>
      simp only [sink, target]
      exact s.engine_writeTake dir p _

/-- A live playback is refused when the queue is full, and is handed over whole otherwise. -/
theorem Queues.perform_live (queues : Queues s e renders) (p : Playback)
    (options : Playback.Options) (live : options.target = .live) :
    sink.perform p options s =
      if 2 * renders.length = Engine.capacity then (.error .bufferFull, s)
      else (.ok (), { s with engine := some (e.withRender (s.renderFor e p options)) }) := by
  have played : sink.perform p options s = s.playLive p (Number.clampUnit options.volume) := by
    simp only [sink, live]
  have room := queues.room
  rw [played]
  by_cases full : 2 * renders.length = Engine.capacity
  · rw [if_pos full, queues.playLive_of_full full]
  · rw [if_neg full, queues.playLive_of_room (by omega)]
    rfl

theorem Queues.act (queues : Queues s e renders) (a : Act) :
    ∃ next, Queues (s.act a).2 next (s.handedOver renders a) := by
  cases a with
  | prepare p => exact ⟨e, queues.of_engine rfl⟩
  | stop => exact ⟨e, queues.of_engine rfl⟩
  | pump n =>
      simp only [Studio.act, handedOver, pump, queues.isOpen, Option.map_some, Option.getD_some]
      refine ⟨_, rfl, ?_, Nat.zero_le _⟩
      simp only [Stream.process, queues.queue]
      rfl
  | perform p options =>
      have room := queues.room
      by_cases live : options.target = .live
      · have performed := queues.perform_live p options live
        simp only [Studio.act, handedOver, queues.isOpen, live, performed, true_and]
        by_cases full : 2 * renders.length = Engine.capacity
        · simp only [full, ↓reduceIte]
          exact ⟨e, queues⟩
        · simp only [full, ↓reduceIte]
          exact ⟨_, queues.withRender _ (by omega)⟩
      · simp only [Studio.act, handedOver, queues.isOpen, live, false_and, ↓reduceIte]
        exact ⟨e, queues.of_engine (s.engine_perform_elsewhere p options live)⟩

theorem Queues.course (queues : Queues s e renders) (acts : List Act) :
    ∃ last, Queues (course acts s renders).1 last (course acts s renders).2 := by
  induction acts generalizing s e renders with
  | nil => exact ⟨e, queues⟩
  | cons a acts ih =>
      obtain ⟨next, after⟩ := queues.act a
      exact ih after

/-- What becomes of a live playback is up to how many commands wait. -/
theorem Queues.next_live (queues : Queues s e renders) (p : Playback)
    (options : Playback.Options) :
    let waiting := e.stream.queue.waiting
    let answer := sink.perform p { options with target := .live } s
    (answer.1 = .error .bufferFull ↔ waiting.length = 64) ∧
      (waiting.length = 64 → answer.2 = s) ∧
      (waiting.length ≠ 64 → answer.1 = .ok () ∧
        answer.2 = { s with engine := some (e.withRender (s.renderFor e p options)) }) := by
  intro waiting answer
  have count : waiting.length = 2 * renders.length := by
    simp only [waiting, queues.queue, length_commands]
  have performed : answer = _ := queues.perform_live p { options with target := .live } rfl
  by_cases full : waiting.length = 64
  · have reached : 2 * renders.length = Engine.capacity := count.symm.trans full
    rw [performed, if_pos reached]
    exact ⟨⟨fun _ => full, fun _ => rfl⟩, fun _ => rfl, fun spare => absurd full spare⟩
  · have below : ¬ 2 * renders.length = Engine.capacity := fun reached => full (count.trans reached)
    rw [performed, if_neg below]
    refine ⟨⟨fun refused => ?_, fun reached => absurd reached full⟩,
      fun reached => absurd reached full, fun _ => ⟨rfl, rfl⟩⟩
    cases refused

end Queued

/-- Whatever happens to a studio whose engine is open and has nothing in its queue, the commands
that wait are those of the renders handed over since the device last asked for samples, each a
volume followed by its samples. A live playback is refused exactly if as many commands wait as the
queue takes, and then nothing changes; otherwise its two commands, and nothing else, are put behind
those that wait. -/
theorem queued_whole (s : Studio) (mixer : Mixer) (format : SoundFormat) (acts : List Act) :
    let start : Studio := { s with engine := some ⟨⟨mixer, .empty Engine.capacity⟩, format⟩ }
    let now := (course acts start []).1
    let renders := (course acts start []).2
    ∃ engine, now.engine = some engine ∧
      engine.stream.queue = ⟨Engine.capacity, renders.flatMap Render.commands⟩ ∧
      ∀ (p : Playback) (options : Playback.Options),
        let waiting := engine.stream.queue.waiting
        let answer := sink.perform p { options with target := .live } now
        (answer.1 = .error .bufferFull ↔ waiting.length = 64) ∧
        (waiting.length = 64 → answer.2 = now) ∧
        (waiting.length ≠ 64 → answer.1 = .ok () ∧ answer.2 =
          { now with engine := some (engine.withRender (now.renderFor engine p options)) }) := by
  intro start now renders
  have nothing : Queues start ⟨⟨mixer, .empty Engine.capacity⟩, format⟩ [] :=
    ⟨rfl, rfl, Nat.zero_le _⟩
  obtain ⟨engine, queues⟩ := nothing.course acts
  exact ⟨engine, queues.isOpen, queues.queue, queues.next_live⟩

end Studio

end Songline
