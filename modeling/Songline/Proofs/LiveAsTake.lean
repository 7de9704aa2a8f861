import Songline.Output.Studio
import Songline.Proofs.DeckRuns
import Songline.Proofs.FileContents
import Songline.Proofs.MixdownPlaces
import Songline.Proofs.SignedZero

set_option autoImplicit false

namespace Songline

namespace Deck

section Listening

variable {State Seen : Type}

/-- What is heard of a deck that is asked for samples again and again. -/
def listen (deck : Deck State) (s : State) : List Nat → Samples
  | [] => #[]
  | n :: lengths =>
    let (out, s) := deck.process s n
    out ++ deck.listen s lengths

theorem Views.listen {view : State → Seen} {deck : Deck State} {seen : Deck Seen}
    (views : Views view deck seen) (lengths : List Nat) (s : State) :
    deck.listen s lengths = seen.listen (view s) lengths := by
  induction lengths generalizing s with
  | nil => rfl
  | cons n lengths ih =>
      simp only [Deck.listen, ← views.process, ih]
      rfl

/-- However the samples are asked for, the ideal deck gives what it gives at once. -/
theorem ideal_listen (lengths : List Nat) (s : IdealStream × Mixer.Flags) :
    ideal.listen s lengths = (ideal.process s lengths.sum).1 := by
  induction lengths generalizing s with
  | nil => rfl
  | cons n lengths ih =>
      have together := s.1.process_add s.2 n lengths.sum
      calc ideal.listen s (n :: lengths)
        _ = (ideal.process s n).1 ++ (ideal.process (ideal.process s n).2 lengths.sum).1 :=
          congrArg ((ideal.process s n).1 ++ ·) (ih (ideal.process s n).2)
        _ = (ideal.process s (n :: lengths).sum).1 := by
          rw [List.sum_cons]
          exact (congrArg Prod.fst together).symm

end Listening

end Deck

/-- Mixed under nothing, a mixdown is as it was: none of its samples is the negative zero. -/
theorem Playback.add_mixdown (p : Playback) (rack : Rack) (format : SoundFormat) :
    IdealMixer.add [] (p.mixdown rack format).toList = (p.mixdown rack format).toList := by
  apply List.ext_getElem?
  intro k
  rw [IdealMixer.getElem?_add, Array.getElem?_toList]
  by_cases inside : k < (p.mixdown rack format).size
  · rw [p.getElem?_mixdown rack format inside]
    exact congrArg some (SignedZero.zero_add_sum _)
  · rw [Array.getElem?_eq_none (by omega)]
    rfl

/-- Nothing is left to be played and no command waits, and there is room for two. -/
structure Engine.Idle (e : Engine) : Prop where
  unplayed : e.stream.mixer.unplayed = #[]
  waiting : e.stream.queue.waiting = []
  room : 2 ≤ e.stream.queue.capacity

/-- An engine that is idle takes a volume and samples. -/
theorem Engine.Idle.mix {e : Engine} (idle : e.Idle) (volume : Float32) (samples : Samples) :
    e.mix volume samples =
      (.ok (), { e with stream := ⟨e.stream.mixer,
        ⟨e.stream.queue.capacity, [.volume volume, .mix samples]⟩⟩ }) := by
  have room := idle.room
  have first : 0 < e.stream.queue.capacity := by omega
  have second : 1 < e.stream.queue.capacity := by omega
  simp only [Engine.mix, Engine.push, Stream.push?, Mixer.Queue.push?, idle.waiting,
    List.length_nil, first, ↓reduceIte, List.nil_append, Option.map_some, List.length_singleton,
    second, List.singleton_append]

/-- A wave file that was written and not refused can be read. -/
theorem Disk.read_of_writeWave {d d' : Disk} {path : String} {format : SoundFormat}
    {samples : Samples} (written : d.writeWave path format samples = (.ok (), d')) :
    d'.read path = .ok (WaveFile.encode format samples) := by
  unfold writeWave at written
  cases stored : d.write path (WaveFile.encode format samples) with
  | error e =>
      rw [stored] at written
      cases written
  | ok after =>
      simp only [stored] at written
      split at written
      · cases written
        exact read_of_write stored
      · cases written

/-- A take that was written is in its file. -/
theorem Takes.read_of_write {t next : Takes} {d d' : Disk} {samples : Samples} {path : String}
    (written : t.write samples d = (.ok path, next, d')) :
    d'.read path = .ok (WaveFile.encode t.format samples) := by
  unfold write at written
  split at written
  · cases written
  · simp only at written
    split at written
    · rename_i stored
      cases written
      exact Disk.read_of_writeWave stored
    · cases written

/-- What is heard of a mixer with nothing left to play, once a volume and samples have come. -/
theorem Engine.Idle.heard {e : Engine} (idle : e.Idle) {samples : Samples}
    (plain : IdealMixer.add [] samples.toList = samples.toList) (volume : Float32) (i : Nat) :
    IdealMixer.heard
        (([Mixer.Command.volume volume, .mix samples]).foldl IdealMixer.carryOut
          e.stream.mixer.ideal) i =
      (samples.map fun x => Limiter.standard.limit (x * Number.clampUnit volume))[i]?.getD
        (Limiter.standard.limit 0.0) := by
  have left : e.stream.mixer.ideal.unplayed = [] := by rw [Mixer.ideal, idle.unplayed]
  have ready : ([Mixer.Command.volume volume, .mix samples]).foldl IdealMixer.carryOut
      e.stream.mixer.ideal = ⟨samples.toList, Number.clampUnit volume⟩ := by
    simp only [List.foldl_cons, List.foldl_nil, IdealMixer.carryOut, left, plain]
  rw [ready, IdealMixer.heard, Array.getElem?_toList, Array.getElem?_map]
  cases samples[i]? <;> rfl

namespace Studio

/-- The path of the last take is that of a file that holds it. -/
theorem read_of_writeTake {s after : Studio} {dir : String} {p : Playback} {volume : Float32}
    (written : s.writeTake dir p volume = (.ok (), after)) :
    let format := (s.takesIn dir).format
    ∃ path, after.lastTake = some path ∧
      after.disk.read path = .ok (WaveFile.encode format (s.takeSamples p format volume)) := by
  simp only [writeTake] at written
  split at written
  · rename_i path takes disk stored
    cases written
    exact ⟨path, rfl, Takes.read_of_write stored⟩
  · cases written

/-- Handed over live to an engine that is idle, a playback is taken. However the device then asks
for samples, it is given those of the take in its format, up to where it stops asking, and after
their end what the limiter makes of silence. And if a take is made, its file holds the take. -/
theorem live_as_take (s : Studio) (engine : Engine) (p : Playback) (options : Playback.Options)
    (isOpen : s.openEngine = .ok engine) (idle : engine.Idle) (going : s.flags.stop = false) :
    let take := fun format => s.takeSamples p format (Number.clampUnit options.volume)
    (∃ next, sink.perform p { options with target := .live } s =
        (.ok (), { s with engine := some next }) ∧
      ∀ lengths, Deck.device.listen (next.stream, s.flags) lengths =
        Array.ofFn fun i : Fin lengths.sum =>
          (take engine.format)[i.val]?.getD (Limiter.standard.limit 0.0)) ∧
    ∀ dir after, sink.perform p { options with target := .wav dir } s = (.ok (), after) →
      let format := (s.takesIn dir).format
      ∃ path, after.lastTake = some path ∧
        after.disk.read path = .ok (WaveFile.encode format (take format)) := by
  intro take
  constructor
  · let gain := Number.clampUnit options.volume
    let samples := p.mixdown s.rack engine.format
    let stream : Stream := ⟨engine.stream.mixer,
      ⟨engine.stream.queue.capacity, [.volume gain, .mix samples]⟩⟩
    have performed : sink.perform p { options with target := .live } s =
        (.ok (), { s with engine := some { engine with stream := stream } }) := by
      simp only [sink, playLive, isOpen, idle.mix]
      rfl
    refine ⟨_, performed, ?_⟩
    intro lengths
    have plain := p.add_mixdown s.rack engine.format
    calc Deck.device.listen (stream, s.flags) lengths
      _ = (stream.ideal.process s.flags lengths.sum).1 := by
        rw [Deck.views_device.listen, Deck.ideal_listen]
        rfl
      _ = Array.ofFn fun i : Fin lengths.sum =>
          (take engine.format)[i.val]?.getD (Limiter.standard.limit 0.0) := by
        rw [IdealStream.process, going]
        apply congrArg Array.ofFn
        funext i
        have heard := idle.heard plain gain i
        rw [Number.clampUnit_clampUnit] at heard
        exact heard
  · intro dir after performed format
    exact read_of_writeTake performed

/-- A new studio loads a piano and plays one note: five samples of it, in two calls. -/
theorem note_as_take :
    let note : Playback :=
      ⟨[⟨.zero, ⟨0⟩, 60, .ofMillis 450, 100⟩], (∅ : PartTable).insert ⟨0⟩ ⟨"piano", "piano", .keys⟩⟩
    let s := (sink.prepare note (.ofSeed 0 (some ⟨⟨44100, 1⟩, none⟩) (.emptyAt []))).2
    let engine : Engine := ⟨.ofCapacity Engine.capacity, ⟨44100, 1⟩⟩
    s.openEngine = .ok engine ∧ engine.Idle ∧ s.flags.stop = false ∧
      ∃ next, sink.perform note ⟨.live, false, 0.5⟩ s =
          (.ok (), { s with engine := some next }) ∧
        Deck.device.listen (next.stream, s.flags) [3, 2] =
          Array.ofFn fun i : Fin 5 =>
            (s.takeSamples note ⟨44100, 1⟩ 0.5)[i.val]?.getD (Limiter.standard.limit 0.0) := by
  intro note s engine
  have idle : engine.Idle := ⟨rfl, rfl, by decide⟩
  have half : Number.clampUnit 0.5 = 0.5 := by decide
  obtain ⟨⟨next, performed, heard⟩, -⟩ :=
    live_as_take s engine note ⟨.live, false, 0.5⟩ rfl idle rfl
  simp only [half] at heard
  exact ⟨rfl, idle, rfl, next, performed, heard [3, 2]⟩

end Studio

end Songline
