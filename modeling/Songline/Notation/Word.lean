import Songline.Notation.SyntaxError

set_option autoImplicit false

/- Words of the notation. A word is music only as a whole, so that `acoustic-bass` is a name and not
a note with a flat: `c+4.~8` is a note, `r8` a rest, `o3` an octave, and every word that is none of
these is a name, unless it holds a dot or a tie. -/
namespace Songline.Word

def isWordChar (c : Char) : Bool :=
  c.isAlphanum || c = '_' || c = '-' || c = '+' || c = '\'' || c = '!' || c = '.' || c = '~'

def splitTies : List Char → List (List Char)
  | [] => [[]]
  | c :: cs =>
    if c = '~' then [] :: splitTies cs
    else
      match splitTies cs with
      | [] => [[c]]
      | piece :: pieces => (c :: piece) :: pieces

/-- A count followed by dots. -/
def noteValue? (cs : List Char) : Option NoteValue :=
  let dots := cs.dropWhile Char.isDigit
  if dots.all (· = '.') then
    (Count.ofDigits? (cs.takeWhile Char.isDigit)).map (⟨·, dots.length⟩)
  else none

theorem dots_le_of_noteValue? {cs : List Char} {v : NoteValue} (read : noteValue? cs = some v) :
    v.dots ≤ cs.length := by
  simp only [noteValue?] at read
  split at read
  · obtain ⟨n, -, rfl⟩ := Option.map_eq_some_iff.mp read
    exact (List.dropWhile_suffix Char.isDigit).length_le
  · cases read

/-- Note values joined by ties. -/
def length? (cs : List Char) : Option Length := ((splitTies cs).mapM noteValue?).map Length.mk

def optionalLength? (cs : List Char) : Option (Option Length) :=
  if cs.isEmpty then some none else (length? cs).map some

/-- The sum of the accidentals that a text starts with, and the text after them; a sharp counts 1, a
flat -1 and a natural 0. There is none once the sum passes the limit. -/
def accidentals? (sum : Int) : List Char → Option (Int × List Char)
  | [] => some (sum, [])
  | c :: cs =>
    if c = '+' then
      if (sum + 1).natAbs ≤ maxAccidentals then accidentals? (sum + 1) cs else none
    else if c = '-' then
      if (sum - 1).natAbs ≤ maxAccidentals then accidentals? (sum - 1) cs else none
    else if c = '_' then accidentals? sum cs
    else some (sum, c :: cs)

def isNoteLetter (c : Char) : Bool := 'a' ≤ c && c ≤ 'g'

/-- The number in a word such as `V12`. -/
def voice? : List Char → Option UInt32
  | 'V' :: digits => Count.ofDigits? digits
  | _ => none

/-- A word that is no music: a name, unless it holds a dot or a tie. -/
def plain (word : List Char) : Except LexicalFault Token :=
  if word.contains '.' || word.contains '~' then
    .error (.malformedLength (String.ofList word))
  else .ok (.name (String.ofList word))

/-- The token that a word is, when no colon makes it a voice. -/
def classify : List Char → Except LexicalFault Token
  | [] => plain []
  | c :: cs =>
    if isNoteLetter c then
      match accidentals? 0 cs with
      | none => .error (.tooManyAccidentals (String.ofList (c :: cs)))
      | some (sum, tail) =>
        match optionalLength? tail with
        | some length => .ok (.note ⟨c, sum, length⟩)
        | none => plain (c :: cs)
    else if c = 'r' then
      match optionalLength? cs with
      | some length => .ok (.rest length)
      | none => plain (c :: cs)
    else if c = 'o' && !cs.isEmpty && cs.all Char.isDigit then
      match Count.ofDigits? cs with
      | some n => .ok (.octave n)
      | none => .error (.octaveOutOfRange (String.ofList (c :: cs)))
    else plain (c :: cs)

end Songline.Word
