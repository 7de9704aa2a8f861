import Songline.Notation.Token

set_option autoImplicit false

namespace Songline

/-- Why a text has no tokens. -/
inductive LexicalFault
  | unexpectedCharacter (c : Char)
  | unclosedString
  | missingRepeatCount
  | tooManyAccidentals (word : String)
  | octaveOutOfRange (word : String)
  | malformedLength (word : String)
deriving DecidableEq, Repr

/-- Why tokens have no reading. The token found is `none` at the end of the text. -/
inductive GrammarFault
  | noMusic
  | noPartDeclaration (found : Option Token)
  | invalidPartName (name : String)
  | noPartName (found : Option Token)
  | repeatWithoutEvent
  | unexpected (found : Option Token)
  | noNoteOrRest (found : Option Token)
  | noAttributeName (found : Option Token)
  | noNumber (found : Option Token)
  | missing (wanted : Token) (found : Option Token)
deriving DecidableEq, Repr

inductive SyntaxFault
  | lexical (fault : LexicalFault)
  | grammar (fault : GrammarFault)
deriving DecidableEq, Repr

/-- A fault and the place it was found at. -/
structure SyntaxError where
  fault : SyntaxFault
  position : Position
deriving DecidableEq, Repr

/-- The most sharps or flats that a note may carry. -/
def maxAccidentals : Nat := 12

def LexicalFault.message : LexicalFault → String
  | unexpectedCharacter c => "unexpected character: '" ++ c.toString ++ "'"
  | unclosedString => "unclosed string literal"
  | missingRepeatCount => "expected repeat count after '*'"
  | tooManyAccidentals word =>
    "too many accidentals in '" ++ word ++ "' (at most " ++ toString maxAccidentals ++ ")"
  | octaveOutOfRange word => "octave out of range: '" ++ word ++ "'"
  | malformedLength word => "malformed note or length: '" ++ word ++ "'"

namespace GrammarFault

def describeFound : Option Token → String
  | some t => t.describe
  | none => "end of input"

def message : GrammarFault → String
  | noMusic => "expected music data"
  | noPartDeclaration found => "expected part declaration, got " ++ describeFound found
  | invalidPartName name => "'" ++ name ++ "' is not a valid part name"
  | noPartName found => "expected part name, got " ++ describeFound found
  | repeatWithoutEvent => "repeat without a preceding event"
  | unexpected found => "unexpected " ++ describeFound found
  | noNoteOrRest found => "expected note or rest, got " ++ describeFound found
  | noAttributeName found => "expected attribute name, got " ++ describeFound found
  | noNumber found => "expected number, got " ++ describeFound found
  | missing wanted found => "expected " ++ wanted.describe ++ ", got " ++ describeFound found

end GrammarFault

namespace SyntaxFault

def stage : SyntaxFault → String
  | lexical _ => "LexError"
  | grammar _ => "ParseError"

def message : SyntaxFault → String
  | lexical fault => fault.message
  | grammar fault => fault.message

end SyntaxFault

namespace SyntaxError

/-- The place in brackets, the stage, and the message. -/
def text (e : SyntaxError) : String :=
  "[" ++ toString e.position.line ++ ":" ++ toString e.position.col ++ "] " ++ e.fault.stage ++
    ": " ++ e.fault.message

end SyntaxError

end Songline
