import Songline.Notation.Form
import Songline.Number.Binary
import Songline.Number.Count
import Songline.Number.Shortest
import Songline.Time.Beat

set_option autoImplicit false

namespace Songline

inductive ScoreError
  | unknownInstrument (name : String)
  | noActivePart
  | unknownAttribute (name : String)
  | outOfRange (name : String) (value : Float)
  | pitchOutOfRange (letter : Char) (octave : Int)
  | invalidLength (denominator : UInt32)
  | aliasInUse (nick : String)
  | timelineOverflow
  | tooLarge (limit : Nat)
deriving DecidableEq, Repr

def ScoreError.message : ScoreError → String
  | unknownInstrument name => "unknown instrument '" ++ name ++ "'"
  | noActivePart => "no part is open; start one with e.g. 'piano:'"
  | unknownAttribute name => "unknown attribute '" ++ name ++ "'"
  | outOfRange name value =>
    "value " ++ Number.text value ++ " is out of range for '" ++ name ++ "'"
  | pitchOutOfRange letter octave =>
    "note '" ++ letter.toString ++ "' in octave " ++ toString octave ++
      " is outside the MIDI range"
  | invalidLength denominator => "invalid note length '" ++ Count.text denominator ++ "'"
  | aliasInUse nick => "alias '" ++ nick ++ "' already names a different part"
  | timelineOverflow => "the score has run past the end of the timeline"
  | tooLarge limit => "line expands to more than " ++ toString limit ++ " notes and rests"

/-- A whole percentage. -/
structure Percent where
  value : UInt8
  le_hundred : value ≤ 100
deriving DecidableEq, Repr

namespace Percent

def full : Percent := ⟨100, by decide⟩

/-- The nearest whole percentage of a number from 0 to 100, a half going up. -/
def ofFloat? (x : Float) : Option Percent :=
  if 0.0 ≤ x ∧ x ≤ 100.0 then
    let n := (Number.roundToCount x).toUInt8
    if h : n ≤ 100 then some ⟨n, h⟩ else none
  else none

end Percent

/-- The attributes that shape how notes are laid out. -/
structure Style where
  /-- Quarters per minute. -/
  tempo : Float
  octave : Int
  /-- The length of notes and rests that give none. -/
  length : Beat
  volume : Percent
  /-- The part of a note's length that sounds. -/
  quant : Percent
deriving DecidableEq, Repr

namespace Style

def default : Style where
  tempo := 120.0
  octave := 4
  length := .quarter
  volume := .full
  quant := ⟨90, by decide⟩

def octaves : List Int := [-1, 0, 1, 2, 3, 4, 5, 6, 7, 8, 9]

/-- The octave that a number names exactly. -/
def octave? (x : Float) : Option Int := octaves.find? (Float.ofInt · == x)

/-- What a setting does to a style, if there is such an attribute and it takes the value. -/
def change (name : String) (value : Float) : Except ScoreError (Style → Style) :=
  let checked {α : Type} (x : Option α) (set : α → Style → Style) :
      Except ScoreError (Style → Style) :=
    match x with
    | some a => .ok (set a)
    | none => .error (.outOfRange name value)
  if name = "tempo" then
    checked (if 1.0 ≤ value ∧ value ≤ 1000.0 then some value else none)
      fun tempo s => { s with tempo := tempo }
  else if name = "vol" ∨ name = "volume" then
    checked (Percent.ofFloat? value) fun volume s => { s with volume := volume }
  else if name = "quant" ∨ name = "quantize" ∨ name = "quantization" then
    checked (Percent.ofFloat? value) fun quant s => { s with quant := quant }
  else if name = "octave" then
    checked (octave? value) fun octave s => { s with octave := octave }
  else .error (.unknownAttribute name)

def set (s : Style) (name : String) (value : Float) : Except ScoreError Style :=
  (change name value).map (· s)

/-- The bounds that octaves can be moved to one by one. -/
def lowestOctave : Int := -2147483648

def highestOctave : Int := 2147483647

/-- Changes the octave. One that is set must be in range; one that is moved to need not be, and the
next note then fails. -/
def changeOctave (s : Style) : OctaveChange → Except ScoreError Style
  | .set n =>
    if (n.toNat : Int) ∈ octaves then .ok { s with octave := n.toNat }
    else .error (.outOfRange "octave" n.toFloat)
  | .up => .ok { s with octave := min (s.octave + 1) highestOctave }
  | .down => .ok { s with octave := max (s.octave - 1) lowestOctave }

end Style

end Songline
