import Songline.Notation.Position

set_option autoImplicit false

namespace Songline.Yaml

inductive Problem
  | controlCharacter
  | unknownAnchor
  | noColon
  | misplacedItem
  | misplacedKey
  | misplacedValue
  | noToken
  | noDirectiveName
  | longDirectiveName
  | unknownDirective
  | noVersionNumber
  | longVersionNumber
  | noVersionPoint
  | noBlank
  | noBlankOrBreak
  | noCommentOrBreak
  | noName
  | noTagMark
  | noTagText
  | noTagEnd
  | noEscapedByte
  | wrongLeadingByte
  | wrongTrailingByte
  | zeroIndentation
  | tabAsIndentation
  | tabBeforeIndentation
  | documentEdge
  | earlyEnd
  | unknownEscape
  | noHexDigit
  | noSuchCharacter
  | unexpectedColon
  | noDocumentStart
  | secondVersion
  | wrongVersion
  | secondHandle
  | unknownHandle
  | noContent
  | noItem
  | noKey
  | noItemEnd
  | noEntryEnd
deriving DecidableEq, Repr

def Problem.text : Problem → String
  | controlCharacter => "control characters are not allowed"
  | unknownAnchor => "unknown anchor"
  | noColon => "could not find expected ':'"
  | misplacedItem => "block sequence entries are not allowed in this context"
  | misplacedKey => "mapping keys are not allowed in this context"
  | misplacedValue => "mapping values are not allowed in this context"
  | noToken => "found character that cannot start any token"
  | noDirectiveName => "could not find expected directive name"
  | longDirectiveName => "found unexpected non-alphabetical character"
  | unknownDirective => "found unknown directive name"
  | noVersionNumber => "did not find expected version number"
  | longVersionNumber => "found extremely long version number"
  | noVersionPoint => "did not find expected digit or '.' character"
  | noBlank => "did not find expected whitespace"
  | noBlankOrBreak => "did not find expected whitespace or line break"
  | noCommentOrBreak => "did not find expected comment or line break"
  | noName => "did not find expected alphabetic or numeric character"
  | noTagMark => "did not find expected '!'"
  | noTagText => "did not find expected tag URI"
  | noTagEnd => "did not find the expected '>'"
  | noEscapedByte => "did not find URI escaped octet"
  | wrongLeadingByte => "found an incorrect leading UTF-8 octet"
  | wrongTrailingByte => "found an incorrect trailing UTF-8 octet"
  | zeroIndentation => "found an indentation indicator equal to 0"
  | tabAsIndentation => "found a tab character where an indentation space is expected"
  | tabBeforeIndentation => "found a tab character that violates indentation"
  | documentEdge => "found unexpected document indicator"
  | earlyEnd => "found unexpected end of stream"
  | unknownEscape => "found unknown escape character"
  | noHexDigit => "did not find expected hexdecimal number"
  | noSuchCharacter => "found invalid Unicode character escape code"
  | unexpectedColon => "found unexpected ':'"
  | noDocumentStart => "did not find expected <document start>"
  | secondVersion => "found duplicate %YAML directive"
  | wrongVersion => "found incompatible YAML document"
  | secondHandle => "found duplicate %TAG directive"
  | unknownHandle => "found undefined tag handle"
  | noContent => "did not find expected node content"
  | noItem => "did not find expected '-' indicator"
  | noKey => "did not find expected key"
  | noItemEnd => "did not find expected ',' or ']'"
  | noEntryEnd => "did not find expected ',' or '\x7d'"

/-- What was being read. -/
inductive Context
  | token
  | key
  | directive
  | version
  | handle
  | handleMark
  | handleName
  | handleText
  | anchor
  | reference
  | tag
  | tagText
  | block
  | quoted
  | escape
  | plain
  | node
  | blockNode
  | flowNode
  | blockSequence
  | blockMapping
  | flowSequence
  | flowMapping
deriving DecidableEq, Repr

def Context.text : Context → String
  | token => "while scanning for the next token"
  | key => "while scanning a simple key"
  | directive => "while scanning a directive"
  | version => "while scanning a %YAML directive"
  | handle => "while scanning a %TAG directive"
  | handleMark => "while scanning a tag directive"
  | handleName => "while parsing a tag directive"
  | handleText => "while parsing a %TAG directive"
  | anchor => "while scanning an anchor"
  | reference => "while scanning an alias"
  | tag => "while scanning a tag"
  | tagText => "while parsing a tag"
  | block => "while scanning a block scalar"
  | quoted => "while scanning a quoted scalar"
  | escape => "while parsing a quoted scalar"
  | plain => "while scanning a plain scalar"
  | node => "while parsing a node"
  | blockNode => "while parsing a block node"
  | flowNode => "while parsing a flow node"
  | blockSequence => "while parsing a block collection"
  | blockMapping => "while parsing a block mapping"
  | flowSequence => "while parsing a flow sequence"
  | flowMapping => "while parsing a flow mapping"

/-- What is wrong with a text, and what was being read there. -/
structure Fault where
  problem : Problem
  place : Position
  /-- The bytes before the fault, if it is found before lines are counted. -/
  offset : Nat
  /-- What was being read, and where that starts. -/
  context : Option (Context × Position)
deriving DecidableEq, Repr

/-- Where something is, as said after it. The start of a text goes without saying. -/
def placeText (p : Position) : String :=
  if p = .start then "" else " at line " ++ toString p.line ++ " column " ++ toString p.col

namespace Fault

/-- The place of a fault, by lines or else by bytes. -/
def whereText (f : Fault) : String :=
  if f.place = .start && f.offset ≠ 0 then " at position " ++ toString f.offset
  else placeText f.place

/-- What was being read; where it starts is said if the fault is not there. -/
def contextText (f : Fault) : String :=
  match f.context with
  | none => ""
  | some (context, start) =>
    ", " ++ context.text ++ (if start = f.place then "" else placeText start)

def text (f : Fault) : String := f.problem.text ++ f.whereText ++ f.contextText

end Fault

end Songline.Yaml
