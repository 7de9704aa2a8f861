set_option autoImplicit false

namespace Songline.Pitch

/-- The semitones of a letter above the C below it, in either case. -/
def letterStep? (letter : Char) : Option Int :=
  match letter.toLower with
  | 'c' => some 0
  | 'd' => some 2
  | 'e' => some 4
  | 'f' => some 5
  | 'g' => some 7
  | 'a' => some 9
  | 'b' => some 11
  | _ => none

/-- The exact number of a pitch, of which MIDI has those from 0 to 127. Octave 4 starts at middle C,
which is 60. -/
def number (step accidentals octave : Int) : Int := (octave + 1) * 12 + step + accidentals

def midi? (letter : Char) (accidentals octave : Int) : Option UInt8 := do
  let step ← letterStep? letter
  let n := number step accidentals octave
  if 0 ≤ n ∧ n ≤ 127 then some (UInt8.ofNat n.toNat) else none

/-- The names of an octave's pitches, all black keys as sharps. -/
def names : List String := ["C", "C#", "D", "D#", "E", "F", "F#", "G", "G#", "A", "A#", "B"]

/-- The name of a MIDI number, such as `C4` for 60. -/
def name (midi : UInt8) : String :=
  names.getD (midi.toNat % 12) "" ++ toString ((midi.toNat : Int) / 12 - 1)

end Songline.Pitch
