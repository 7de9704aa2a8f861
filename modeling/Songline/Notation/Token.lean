import Songline.Number.Count
import Songline.Number.Shortest
import Songline.Notation.Position

set_option autoImplicit false

namespace Songline

/-- A note value: 4 is a quarter, 8 an eighth, 3 a triplet half. Each dot lengthens it by half of
what the dot before added. A word has no more dots than characters (`Word.dots_le_of_noteValue?`),
so 32 bits are enough for those of any word shorter than `2 ^ 32`. -/
structure NoteValue where
  denominator : UInt32
  dots : Nat
deriving DecidableEq, Repr

/-- A written length: one note value, or several tied together. -/
structure Length where
  values : List NoteValue
deriving DecidableEq, Repr

/-- A written note: a letter, the sum of its sharps and flats, and its length if it gives one. -/
structure Note where
  letter : Char
  accidentals : Int
  length : Option Length
deriving DecidableEq, Repr

inductive Token
  | note (note : Note)
  | rest (length : Option Length)
  | octave (n : UInt32)
  | octaveUp
  | octaveDown
  /-- `V1:`, the colon included. -/
  | voice (n : UInt32)
  | barline
  | times (n : UInt32)
  | name (s : String)
  | quoted (s : String)
  | number (value : Float)
  | openParen
  | closeParen
  | openBracket
  | closeBracket
  | slash
  | colon
deriving DecidableEq, Repr

/-- A token and the place of its first character. -/
structure Token.Placed where
  token : Token
  position : Position
deriving DecidableEq, Repr

/-- The tokens of a text, and the place where the text ends. -/
structure TokenLine where
  tokens : List Token.Placed
  finish : Position
deriving DecidableEq, Repr

namespace Token

def describe : Token → String
  | note n => "note '" ++ n.letter.toString ++ "'"
  | rest _ => "rest"
  | octave n => "octave 'o" ++ Count.text n ++ "'"
  | octaveUp => "'>'"
  | octaveDown => "'<'"
  | voice n => "voice 'V" ++ Count.text n ++ ":'"
  | barline => "'|'"
  | times n => "repeat '*" ++ Count.text n ++ "'"
  | name s => "identifier '" ++ s ++ "'"
  | quoted s => "string \"" ++ s ++ "\""
  | number value => "number " ++ Number.text value
  | openParen => "'('"
  | closeParen => "')'"
  | openBracket => "'['"
  | closeBracket => "']'"
  | slash => "'/'"
  | colon => "':'"

end Token

end Songline
