import Songline.Score.Catalogue
import Songline.Sound.Drum
import Songline.Sound.Pluck
import Songline.Sound.Tone

set_option autoImplicit false

namespace Songline

/-- The rate and the number of channels that sound is rendered for. -/
structure SoundFormat where
  rate : UInt32
  channels : UInt16
deriving DecidableEq, Repr

/-- What makes the sound of a patch, in one channel. -/
inductive Synth
  | tone (tone : Tone)
  | pluck (seed : UInt64)
  | drums (seed : UInt64)

namespace Synth

def ofPatch (seed : UInt64) : Patch → Synth
  | .keys => tone .keys
  | .organ => tone .organ
  | .pad => tone .pad
  | .bass => tone .bass
  | .lead waveform => tone (.lead waveform)
  | .pluck => pluck seed
  | .percussion => drums seed

def name : Synth → String
  | tone t => t.name
  | pluck _ => "pluck"
  | drums _ => "percussion"

def mono (e : Event) (rate : UInt32) : Synth → Samples
  | tone t => t.mono e rate
  | pluck seed => Pluck.mono seed e rate
  | drums seed => Drum.mono seed e rate

def render (s : Synth) (e : Event) (format : SoundFormat) : Samples :=
  Samples.interleave format.channels.toNat (s.mono e format.rate)

end Synth

end Songline
