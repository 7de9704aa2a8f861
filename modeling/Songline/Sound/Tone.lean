import Songline.Number.Binary
import Songline.Score.Event
import Songline.Sound.Samples
import Songline.Sound.Waveform

set_option autoImplicit false

namespace Songline

/-- The shape of a loudness. Times are in seconds, the sustain is a level. -/
structure Envelope where
  attack : Float
  decay : Float
  sustain : Float
  release : Float

namespace Envelope

def held (e : Envelope) (t : Float) : Float :=
  if t < e.attack then t / e.attack
  else if t < e.attack + e.decay then
    let passed := (t - e.attack) / e.decay
    1.0 - passed * (1.0 - e.sustain)
  else e.sustain

/-- The level at a time for a note held that long. The release falls from the level reached, so a
note shorter than its attack does not jump. -/
def amplitude (e : Envelope) (t duration : Float) : Float :=
  if t < 0.0 then 0.0
  else if t < duration then e.held t
  else
    let passed := t - duration
    if e.release ≤ 0.0 ∨ passed ≥ e.release then 0.0
    else e.held duration * (1.0 - passed / e.release)

def total (e : Envelope) (duration : Float) : Float := duration + e.release

def frames (e : Envelope) (duration : Float) (rate : UInt32) : Nat :=
  (e.total duration * rate.toFloat).ceil.toUInt64.toNat

end Envelope

/-- An oscillator of a tone: its frequency, as a ratio to that of the note, and its gain. -/
structure Partial where
  ratio : Float
  gain : Float

/-- A bank of oscillators under an envelope, with or without a low-pass filter. -/
structure Tone where
  name : String
  waveform : Waveform
  partials : List Partial
  envelope : Envelope
  /-- The cutoff of the low-pass filter in Hz. -/
  cutoff : Option Float

namespace Tone

/-- A triangle with a quiet octave, which soon falls to a low sustain. -/
def keys : Tone :=
  ⟨"keys", .triangle, [⟨1.0, 0.6⟩, ⟨2.0, 0.15⟩], ⟨0.005, 0.4, 0.35, 0.25⟩, none⟩

/-- Sines at full sustain. -/
def organ : Tone :=
  ⟨"organ", .sine, [⟨1.0, 0.45⟩, ⟨2.0, 0.25⟩, ⟨4.0, 0.12⟩], ⟨0.01, 0.0, 1.0, 0.05⟩, none⟩

/-- Two detuned saws with a slow attack and a long release. -/
def pad : Tone :=
  ⟨"pad", .saw, [⟨1.0, 0.3⟩, ⟨Tuning.centsRatio 12.0, 0.3⟩], ⟨0.15, 0.2, 0.6, 0.4⟩, some 4000.0⟩

/-- Detuned saws through a low filter. -/
def bass : Tone :=
  ⟨"bass", .saw, [⟨1.0, 0.5⟩, ⟨Tuning.centsRatio 7.0, 0.5⟩], ⟨0.005, 0.1, 0.8, 0.05⟩, some 800.0⟩

/-- One waveform with a slightly detuned double. -/
def lead (waveform : Waveform) : Tone :=
  ⟨"lead", waveform, [⟨1.0, 0.45⟩, ⟨Tuning.centsRatio 5.0, 0.15⟩], ⟨0.02, 0.1, 0.75, 0.1⟩,
    some 3000.0⟩

/-- An oscillator while it runs. -/
structure Running where
  phase : Float
  step : Float
  gain : Float

namespace Running

def next (r : Running) : Running := { r with phase := Number.fraction (r.phase + r.step) }

end Running

/-- What one frame hands on to the next: the oscillators and the output of the filter. -/
structure State where
  bank : List Running
  filtered : Float

def mixed (waveform : Waveform) (bank : List Running) : Float :=
  bank.foldl (fun sum r => sum + waveform.value r.phase * r.gain) 0.0

/-- The output of the oscillators in one frame, filtered if there is a filter. -/
def frame (t : Tone) (smoothing : Option Float) (s : State) : Float × State :=
  let x := mixed t.waveform s.bank
  let bank := s.bank.map Running.next
  match smoothing with
  | none => (x, ⟨bank, s.filtered⟩)
  | some alpha =>
    let filtered := s.filtered + alpha * (x - s.filtered)
    (filtered, ⟨bank, filtered⟩)

/-- The sound of an event in one channel. A silent event has none. -/
def mono (t : Tone) (e : Event) (rate : UInt32) : Samples :=
  if e.velocity ≤ 0.0 then #[]
  else
    let velocity := e.velocity.toFloat
    let sampleRate := rate.toFloat
    let frequency := Tuning.frequency e.pitch
    let bank := t.partials.map fun p => ⟨0.0, frequency * p.ratio / sampleRate, p.gain⟩
    let duration := e.duration.seconds
    let smoothing := t.cutoff.map (Tuning.smoothing · rate)
    Samples.generate (t.envelope.frames duration rate) (⟨bank, 0.0⟩ : State) fun i s =>
      let (x, s) := t.frame smoothing s
      let level := t.envelope.amplitude (i.toFloat / sampleRate) duration
      (x * level * velocity, s)

end Tone

end Songline
