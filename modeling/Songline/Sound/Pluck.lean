import Songline.Score.Event
import Songline.Sound.Noise
import Songline.Sound.Samples
import Songline.Sound.Waveform

set_option autoImplicit false

namespace Songline.Pluck

/-- How long a string rings after its note, in seconds. -/
def tail : Float := 0.2

def fadeFrames : Nat := 200

/-- What is left of the sound after each pass through the delay line. -/
def damping : Float := 0.996

/-- The delay line and the place that is read next. -/
structure State where
  line : Array Float
  place : Nat

/-- Reads the delay line, and writes the damped mean of two neighbours back. -/
def read (s : State) : Float × State :=
  let next := (s.place + 1) % s.line.size
  let x := s.line.getD s.place 0.0
  let mean := (x + s.line.getD next 0.0) * 0.5 * damping
  (x, ⟨s.line.setIfInBounds s.place mean, next⟩)

/-- The gain of a frame, by the number of frames left. -/
def fade (left : Nat) : Float :=
  if left < fadeFrames then left.toFloat / fadeFrames.toFloat else 1.0

/-- The sound of an event in one channel. There is none if it is silent, or too high for the
sample rate. -/
def mono (seed : UInt64) (e : Event) (rate : UInt32) : Samples :=
  let delay := (rate.toFloat / Tuning.frequency e.pitch).round.toUInt64.toNat
  if e.velocity ≤ 0.0 ∨ delay < 2 then #[]
  else
    let velocity := e.velocity.toFloat
    let frames := ((e.duration.seconds + tail) * rate.toFloat).toUInt64.toNat
    let noise := (Noise.samples (seed + e.pitch.toUInt64) delay).extract 0 delay
    Samples.generate frames (⟨noise, 0⟩ : State) fun i s =>
      let (x, s) := read s
      (x * velocity * fade (frames - i) * 0.8, s)

end Songline.Pluck
