set_option autoImplicit false

namespace Songline

inductive Waveform
  | sine
  | saw
  | square
  | triangle
deriving DecidableEq, Repr

namespace Waveform

def pi : Float := 3.141592653589793

/-- The value at a phase from 0 to 1, which spans one cycle. -/
def value (phase : Float) : Waveform → Float
  | sine => (phase * 2.0 * pi).sin
  | saw => 2.0 * phase - 1.0
  | square => if phase < 0.5 then 1.0 else -1.0
  | triangle =>
    if phase < 0.25 then 4.0 * phase
    else if phase < 0.75 then 2.0 - 4.0 * phase
    else 4.0 * phase - 4.0

end Waveform

namespace Tuning

/-- The frequency of a MIDI number in Hz; 69 is A at 440. -/
def frequency (midi : UInt8) : Float := 440.0 * (2.0 : Float).pow ((midi.toFloat - 69.0) / 12.0)

/-- The frequency ratio of a detune in hundredths of a semitone. -/
def centsRatio (cents : Float) : Float := (2.0 : Float).pow (cents / 1200.0)

/-- The share of the difference that a one-pole low-pass follows at each sample. -/
def smoothing (cutoff : Float) (rate : UInt32) : Float :=
  let rc := 1.0 / (2.0 * Waveform.pi * cutoff)
  let dt := 1.0 / rate.toFloat
  dt / (rc + dt)

end Tuning

end Songline
