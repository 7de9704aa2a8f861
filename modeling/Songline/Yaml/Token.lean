import Songline.Yaml.Scalar

set_option autoImplicit false

/- The tokens of a YAML text. Indentation becomes tokens that open and close collections. That a
scalar is a key is known only from the colon after it, on the same line; its token is then put
before it. So a token is settled when no key can start there any more, and of a text that has a
fault only the settled tokens before the fault are known. -/
namespace Songline.Yaml

/-- A tag in full, or a part of one: bytes, which need not be a text. -/
abbrev Tag := List UInt8

def Tag.ofString (s : String) : Tag := s.toUTF8.toList

/-- The handle of a tag and what follows it. -/
structure TagName where
  handle : String
  suffix : Tag
deriving DecidableEq, Repr

inductive Token
  | version (major minor : Nat)
  | tagHandle (handle : String) (expansion : Tag)
  | documentStart
  | documentEnd
  | blockSequenceStart
  | blockMappingStart
  | blockEnd
  | flowSequenceStart
  | flowSequenceEnd
  | flowMappingStart
  | flowMappingEnd
  | blockEntry
  | flowEntry
  | key
  | value
  | reference (name : String)
  | anchor (name : String)
  | tag (name : TagName)
  | scalar (text : String) (style : Style)
  | textEnd
  /-- Text that is no token. No token follows it. -/
  | unreadable (fault : Fault)
deriving DecidableEq, Repr

/-- A token, with the place of its first character and the place after its last one. -/
structure Placed where
  token : Token
  start : Position
  stop : Position

def Placed.empty (t : Token) (place : Position) : Placed := ⟨t, place, place⟩

/-- Characters of tags; some are allowed between angle brackets only. -/
def isTagChar (bracketed : Bool) (c : Char) : Bool :=
  isWordChar c || ";/?:@&=+$.!~*'()%".toList.contains c || (bracketed && ",[]".toList.contains c)

/-- How many escapes must follow one for a byte, given how many were still to follow. A byte that
starts a character says how many more it takes. -/
def escapesAfter (missing : Nat) (byte : UInt8) : Except Problem Nat :=
  match missing with
  | n + 1 => if byte &&& 0xC0 = 0x80 then .ok n else .error .wrongTrailingByte
  | 0 =>
    if byte &&& 0x80 = 0 then .ok 0
    else if byte &&& 0xE0 = 0xC0 then .ok 1
    else if byte &&& 0xF0 = 0xE0 then .ok 2
    else if byte &&& 0xF8 = 0xF0 then .ok 3
    else .error .wrongLeadingByte

/-- The byte that two digits after a percent sign name. -/
def escapedByte? (x y : Char) : Option UInt8 := do
  UInt8.ofNat ((← hexValue? x) * 16 + (← hexValue? y))

/-- The bytes that a tag's characters stand for: a percent sign and two digits are a byte. The bytes
of a character stand together. What is wrong is found after so many characters. -/
def tagBytes (missing passed : Nat) : List Char → Except (Problem × Nat) (List UInt8)
  | [] => if missing = 0 then .ok [] else .error (.noEscapedByte, passed)
  | '%' :: x :: y :: rest => do
    let byte ← match escapedByte? x y with
      | some byte => .ok byte
      | none => .error (.noEscapedByte, passed)
    let missing ← match escapesAfter missing byte with
      | .ok missing => .ok missing
      | .error problem => .error (problem, passed)
    .ok (byte :: (← tagBytes missing (passed + 3) rest))
  | c :: rest => do
    if c = '%' || missing ≠ 0 then .error (.noEscapedByte, passed)
    .ok (String.utf8EncodeChar c ++ (← tagBytes 0 (passed + 1) rest))

/-- Reads the part of a tag that some characters of a class spell. It ends before a byte of value
zero. -/
def readTagPart (bracketed : Bool) (context : Context) (start : Position) (c : Cursor) :
    Except Fault (Tag × Cursor) :=
  let spelt := c.takeWhile (isTagChar bracketed)
  match tagBytes 0 0 spelt with
  | .ok bytes => .ok (bytes.takeWhile (· ≠ 0), c.skip spelt.length)
  | .error (problem, passed) => .error ((c.skip passed).fault problem context start)

/-- Reads a part of a tag that has at least one character. -/
def readFilledPart (bracketed : Bool) (context : Context) (start : Position) (c : Cursor) :
    Except Fault (Tag × Cursor) := do
  let (part, next) ← readTagPart bracketed context start c
  if next.bytes = c.bytes then .error (c.fault .noTagText context start)
  .ok (part, next)

/-- Reads the name of an anchor or of a reference to it, from its indicator on. -/
def readName (context : Context) (c : Cursor) : Except Fault (String × Cursor) :=
  let name := (c.skip 1).takeWhile isWordChar
  let next := c.skip (name.length + 1)
  let ended :=
    match next.rest with
    | [] => true
    | x :: _ => isSpaceOrBreak x || "?:,]\x7d%@\x60".toList.contains x
  if name.isEmpty || !ended then .error (next.fault .noName context c.position)
  else .ok (String.ofList name, next)

/-- Reads a handle from its exclamation mark on: a name, and an exclamation mark if there is one. -/
def readHandle (c : Cursor) : List Char × Cursor :=
  let name := (c.skip 1).takeWhile isWordChar
  let close := if (c.skip (name.length + 1)).head? = some '!' then ['!'] else []
  let handle := '!' :: name ++ close
  (handle, c.skip handle.length)

/-- Reads a tag between angle brackets, from its exclamation mark on. -/
def readBracketedTag (c : Cursor) : Except Fault (TagName × Cursor) := do
  let (suffix, next) ← readFilledPart true .tagText c.position (c.skip 2)
  if next.head? ≠ some '>' then .error (next.fault .noTagEnd .tag c.position)
  .ok (⟨"", suffix⟩, next.skip 1)

/-- Reads a tag that starts with a handle. A lone exclamation mark is a tag of its own. -/
def readShortTag (c : Cursor) : Except Fault (TagName × Cursor) := do
  let (handle, next) := readHandle c
  if 2 ≤ handle.length && handle.getLast? = some '!' then
    let (suffix, next) ← readFilledPart false .tagText c.position next
    .ok (⟨String.ofList handle, suffix⟩, next)
  else
    let (part, next) ← readTagPart false .tagText c.position next
    let suffix := Tag.ofString (String.ofList handle.tail) ++ part
    if suffix.isEmpty then .ok (⟨"", .ofString "!"⟩, next) else .ok (⟨"!", suffix⟩, next)

/-- Reads a tag, which a blank must follow, or a comma within brackets. -/
def readTag (flow : Bool) (c : Cursor) : Except Fault (TagName × Cursor) := do
  let (tag, next) ← if c.rest[1]? = some '<' then readBracketedTag c else readShortTag c
  if endsWord next.rest || (flow && next.head? = some ',') then .ok (tag, next)
  else .error (next.fault .noBlankOrBreak .tag c.position)

def versionDigits : Nat := 9

def readVersionPart (start : Position) (c : Cursor) : Except Fault (Nat × Cursor) :=
  let ds := c.takeWhile Char.isDigit
  if ds.isEmpty then .error (c.fault .noVersionNumber .version start)
  else if ds.length > versionDigits then
    .error ((c.skip versionDigits).fault .longVersionNumber .version start)
  else .ok (Nat.ofDigitChars 10 ds 0, c.skip ds.length)

def readVersion (start : Position) (c : Cursor) : Except Fault (Token × Cursor) := do
  let (major, c) ← readVersionPart start (c.skipWhile isSpace)
  if c.head? ≠ some '.' then .error (c.fault .noVersionPoint .version start)
  let (minor, c) ← readVersionPart start (c.skip 1)
  .ok (.version major minor, c)

def readTagHandle (start : Position) (c : Cursor) : Except Fault (Token × Cursor) := do
  let c := c.skipWhile isSpace
  if c.head? ≠ some '!' then .error (c.fault .noTagMark .handleMark start)
  let (handle, c) := readHandle c
  if handle ≠ ['!'] && handle.getLast? ≠ some '!' then
    .error (c.fault .noTagMark .handleName start)
  if !c.head?.any isSpace then .error (c.fault .noBlank .handle start)
  let (expansion, next) ← readFilledPart true .handleText start (c.skipWhile isSpace)
  if !endsWord next.rest then .error (next.fault .noBlankOrBreak .handle start)
  .ok (.tagHandle (String.ofList handle) expansion, next)

def readDirective (c : Cursor) : Except Fault (Placed × Cursor) := do
  let start := c.position
  let c := c.skip 1
  let name := c.takeWhile isWordChar
  let c := c.skip name.length
  if name.isEmpty then .error (c.fault .noDirectiveName .directive start)
  if !endsWord c.rest then .error (c.fault .longDirectiveName .directive start)
  let (token, c) ←
    if name = "YAML".toList then readVersion start c
    else if name = "TAG".toList then readTagHandle start c
    else .error (c.fault .unknownDirective .directive start)
  .ok (⟨token, start, c.position⟩, ← c.finishLine .directive start)

/-- Where a key without a mark of its own may have started. -/
structure Candidate where
  /-- The number of the token that would be a key. -/
  number : Nat
  /-- Whether nothing but a key may stand there. -/
  required : Bool
  start : Cursor

/-- A text while its tokens are read. -/
structure Scan where
  cursor : Cursor
  /-- The tokens so far, the latest first. -/
  tokens : List Placed
  /-- How many they are. Tokens are numbered from 0 in the order of the text. -/
  count : Nat
  /-- The columns of the block collections around this place, the innermost first. -/
  indents : List Nat
  /-- The candidates for a key: one for the innermost brackets, one for those around them, and so
  on; the last is the one outside of all brackets. -/
  candidates : List (Option Candidate)
  /-- Whether a key without a mark of its own may start here. -/
  keyAllowed : Bool

namespace Scan

def ofChars (cs : List Char) : Scan := ⟨.ofChars cs, [], 0, [], [none], true⟩

def position (s : Scan) : Position := s.cursor.position

def inFlow (s : Scan) : Bool := s.candidates.length > 1

def skip (s : Scan) (n : Nat) : Scan := { s with cursor := s.cursor.skip n }

def push (s : Scan) (t : Placed) : Scan := { s with tokens := t :: s.tokens, count := s.count + 1 }

/-- Adds a token before the one that has a number, which the new one gets. -/
def insert (s : Scan) (number : Nat) (t : Placed) : Scan :=
  { s with tokens := s.tokens.insertIdx (s.count - number) t, count := s.count + 1 }

/-- Takes the text from here to another place for a token. -/
def emit (s : Scan) (t : Token) (next : Cursor) : Scan :=
  { s.push ⟨t, s.position, next.position⟩ with cursor := next }

def take (s : Scan) (n : Nat) (t : Token) : Scan := s.emit t (s.cursor.skip n)

def indent? (s : Scan) : Option Nat := s.indents.head?

/-- The first column to the right of that. -/
def innerColumn (s : Scan) : Nat := s.indent?.elim 0 (· + 1)

/-- Opens a block collection, unless one is open at that column or further right. Its token gets the
given number. -/
def openBlock (s : Scan) (start : Cursor) (number : Nat) (t : Token) : Scan :=
  if s.inFlow || start.column < s.innerColumn then s
  else { s with indents := start.column :: s.indents }.insert number (.empty t start.position)

/-- Closes so many of the innermost block collections. -/
def close (s : Scan) (blocks : Nat) : Scan :=
  { s with
    indents := s.indents.drop blocks
    tokens := List.replicate blocks (.empty .blockEnd s.position) ++ s.tokens
    count := s.count + blocks }

/-- Closes the block collections whose lines start to the right of a column. -/
def closeBlocks (s : Scan) (column : Nat) : Scan :=
  if s.inFlow then s else s.close (s.indents.takeWhile (column < ·)).length

def closeAllBlocks (s : Scan) : Scan :=
  if s.inFlow then s else s.close s.indents.length

/-- A key was required where a candidate starts, and does not end. -/
def missingColon (s : Scan) (c : Candidate) : Fault :=
  s.cursor.fault .noColon .key c.start.position

/-- Gives the innermost candidate up, unless a key is required there. -/
def dropCandidate (s : Scan) : Except Fault Scan :=
  match s.candidates with
  | some candidate :: outer =>
    if candidate.required then .error (s.missingColon candidate)
    else .ok { s with candidates := none :: outer }
  | _ => .ok s

def noteCandidate (s : Scan) : Except Fault Scan :=
  if !s.keyAllowed then .ok s
  else do
    let required := !s.inFlow && s.indent? = some s.cursor.column
    let s ← s.dropCandidate
    .ok { s with candidates := some ⟨s.count, required, s.cursor⟩ :: s.candidates.tail }

/-- Whether a key that started there can no longer end here: it has one line and 1024 bytes. -/
def isStale (s : Scan) (c : Candidate) : Bool :=
  c.start.line < s.cursor.line || c.start.bytes + 1024 < s.cursor.bytes

def dropStale (s : Scan) : Except Fault Scan := do
  let candidates ← s.candidates.mapM fun candidate =>
    match candidate with
    | none => .ok none
    | some c =>
      if !s.isStale c then .ok (some c)
      else if c.required then .error (s.missingColon c)
      else .ok none
  .ok { s with candidates := candidates }

/-- How many tokens stand before the first candidate. -/
def settled (s : Scan) : Nat :=
  s.candidates.foldl (fun n candidate => candidate.elim n fun c => min n c.number) s.count

/-- What is known of the tokens when the text after them has a fault, the latest first. -/
def stopped (s : Scan) (f : Fault) : List Placed :=
  .empty (.unreadable f) f.place :: s.tokens.drop (s.count - s.settled)

/-- A mark for the order of bytes. It says nothing where a line starts. -/
def byteOrderMark : Char := '\uFEFF'

/-- Passes over spaces, comments and line breaks before a token. Tabs are refused where a key may
start. The number bounds the characters that are left, here and below. -/
def skipBlank (s : Scan) : Nat → Scan
  | 0 => s
  | n + 1 =>
    match s.cursor.rest with
    | [] => s
    | x :: _ =>
      if x = byteOrderMark && s.cursor.column = 0 then (s.skip 1).skipBlank n
      else if x = ' ' || (x = '\t' && (s.inFlow || !s.keyAllowed)) then (s.skip 1).skipBlank n
      else if x = '#' then { s with cursor := s.cursor.skipComment }.skipBlank n
      else if isBreak x then
        let keyAllowed := s.keyAllowed || !s.inFlow
        { s with cursor := s.cursor.takeBreak.2, keyAllowed := keyAllowed }.skipBlank n
      else s

/-- A directive or a marker between documents, which closes all that is open. -/
def between (s : Scan) : Except Fault Scan := do
  let s ← s.closeAllBlocks.dropCandidate
  .ok { s with keyAllowed := false }

def marker (s : Scan) (t : Token) : Except Fault Scan := do
  .ok ((← s.between).take 3 t)

def directive (s : Scan) : Except Fault Scan := do
  let s ← s.between
  let (t, next) ← readDirective s.cursor
  .ok { s.push t with cursor := next }

def openFlow (s : Scan) (t : Token) : Except Fault Scan := do
  let s ← s.noteCandidate
  .ok ({ s with candidates := none :: s.candidates, keyAllowed := true }.take 1 t)

def closeFlow (s : Scan) (t : Token) : Except Fault Scan := do
  let s ← s.dropCandidate
  let candidates := if s.inFlow then s.candidates.tail else s.candidates
  .ok ({ s with candidates := candidates, keyAllowed := false }.take 1 t)

def flowEntry (s : Scan) : Except Fault Scan := do
  let s ← s.dropCandidate
  .ok ({ s with keyAllowed := true }.take 1 .flowEntry)

/-- Opens a collection here for an entry or a key with a mark, or says that they may not stand
here. -/
def openHere (s : Scan) (t : Token) (problem : Problem) : Except Fault Scan :=
  if s.inFlow then .ok s
  else if s.keyAllowed then .ok (s.openBlock s.cursor s.count t)
  else .error ⟨problem, s.position, 0, none⟩

def blockEntry (s : Scan) : Except Fault Scan := do
  let s ← (← s.openHere .blockSequenceStart .misplacedItem).dropCandidate
  .ok ({ s with keyAllowed := true }.take 1 .blockEntry)

def markedKey (s : Scan) : Except Fault Scan := do
  let s ← (← s.openHere .blockMappingStart .misplacedKey).dropCandidate
  .ok ({ s with keyAllowed := !s.inFlow }.take 1 .key)

/-- A colon: the candidate becomes a key, or the value belongs to a key with a mark. -/
def value (s : Scan) : Except Fault Scan := do
  match s.candidates with
  | some candidate :: outer =>
    let s := s.insert candidate.number (.empty .key candidate.start.position)
    let s := { s with candidates := none :: outer, keyAllowed := false }
    let s := s.openBlock candidate.start candidate.number .blockMappingStart
    .ok (s.take 1 .value)
  | _ =>
    let s ← s.openHere .blockMappingStart .misplacedValue
    .ok ({ s with keyAllowed := !s.inFlow }.take 1 .value)

/-- A token that may be a key, or start one. -/
def keyPart (s : Scan) (read : Scan → Except Fault (Token × Cursor)) : Except Fault Scan := do
  let s ← s.noteCandidate
  let (t, next) ← read s
  .ok { s.emit t next with keyAllowed := false }

def name (s : Scan) (context : Context) (token : String → Token) : Except Fault Scan :=
  s.keyPart fun s => do
    let (name, next) ← readName context s.cursor
    .ok (token name, next)

def tag (s : Scan) : Except Fault Scan :=
  s.keyPart fun s => do
    let (tag, next) ← readTag s.inFlow s.cursor
    .ok (.tag tag, next)

def quoted (fuel : Nat) (s : Scan) (double : Bool) : Except Fault Scan :=
  s.keyPart fun s => do
    let text ← quotedScalar fuel double s.cursor
    let style : Style := if double then .doubleQuoted else .singleQuoted
    .ok (.scalar (String.ofList text.text) style, text.next)

def plain (fuel : Nat) (s : Scan) : Except Fault Scan := do
  let s ← s.noteCandidate
  let text ← plainScalar fuel s.inFlow s.innerColumn s.cursor
  let t := Token.scalar (String.ofList text.text) .plain
  .ok { s.emit t text.next with keyAllowed := text.brokeLine }

def block (fuel : Nat) (s : Scan) (folded : Bool) : Except Fault Scan := do
  let s ← s.dropCandidate
  let text ← blockScalar fuel folded s.indent? s.cursor
  let t := Token.scalar (String.ofList text.text) (if folded then .folded else .literal)
  .ok { s.emit t text.next with keyAllowed := true }

/-- Characters that start no plain scalar, unless what follows allows it. -/
def isIndicator (c : Char) : Bool := "-?:,[]\x7b\x7d#&*!|>'\"%@\x60".toList.contains c

/-- Whether a plain scalar may start with a character. -/
def startsPlain (flow : Bool) (x : Char) (after : List Char) : Bool :=
  (!isSpaceOrBreak x && !isIndicator x) || (x = '-' && !after.head?.any isSpace) ||
    (!flow && (x = '?' || x = ':') && !endsWord after)

def token (fuel : Nat) (s : Scan) (x : Char) (after : List Char) : Except Fault Scan :=
  let mark := s.inFlow || endsWord after
  if s.cursor.column = 0 && x = '%' then s.directive
  else if s.cursor.isMarker '-' then s.marker .documentStart
  else if s.cursor.isMarker '.' then s.marker .documentEnd
  else if x = '[' then s.openFlow .flowSequenceStart
  else if x = '{' then s.openFlow .flowMappingStart
  else if x = ']' then s.closeFlow .flowSequenceEnd
  else if x = '}' then s.closeFlow .flowMappingEnd
  else if x = ',' then s.flowEntry
  else if x = '-' && endsWord after then s.blockEntry
  else if x = '?' && mark then s.markedKey
  else if x = ':' && mark then s.value
  else if x = '*' then s.name .reference .reference
  else if x = '&' then s.name .anchor .anchor
  else if x = '!' then s.tag
  else if x = '|' && !s.inFlow then s.block fuel false
  else if x = '>' && !s.inFlow then s.block fuel true
  else if x = '\'' then s.quoted fuel false
  else if x = '"' then s.quoted fuel true
  else if startsPlain s.inFlow x after then s.plain fuel
  else .error (s.cursor.fault .noToken .token s.position)

/-- The end of the text, on a line of its own, closes all blocks. -/
def finish (s : Scan) : Except Fault Scan := do
  let c := s.cursor
  let next := if c.column = 0 then c else { c with line := c.line + 1, column := 0 }
  let s ← { s with cursor := next }.closeAllBlocks.dropCandidate
  .ok (s.emit .textEnd next)

/-- Reads the next token, and says whether the text goes on after it. -/
def advance (fuel : Nat) (s : Scan) : Except Fault (Scan × Bool) := do
  let s ← (s.skipBlank fuel).dropStale
  let s := s.closeBlocks s.cursor.column
  match s.cursor.rest with
  | [] => .ok (← (← s.finish).dropStale, false)
  | x :: after => .ok (← (← s.token fuel x after).dropStale, true)

/-- Reads the tokens that are left, the latest first. -/
def run (s : Scan) : Nat → List Placed
  | 0 => s.tokens
  | n + 1 =>
    match s.advance (n + 1) with
    | .error f => s.stopped f
    | .ok (next, goesOn) => if goesOn then next.run n else next.tokens

end Scan

/-- The tokens of a text. The last of them is its end, or what cannot be read. -/
def tokens (text : String) : List Placed :=
  let cs := text.toList
  let allowed := cs.takeWhile isAllowed
  if allowed.length < cs.length then
    [.empty (.unreadable ⟨.controlCharacter, .start, Cursor.byteCount allowed, none⟩) .start]
  else ((Scan.ofChars cs).run (cs.length + 2)).reverse

end Songline.Yaml
