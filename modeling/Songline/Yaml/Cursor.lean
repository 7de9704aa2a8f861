import Songline.Yaml.Fault

set_option autoImplicit false

namespace Songline.Yaml

def isAllowed (c : Char) : Bool :=
  let n := c.toNat
  n = 0x09 || n = 0x0A || n = 0x0D || (0x20 ≤ n && n ≤ 0x7E) || n = 0x85 ||
    (0xA0 ≤ n && n ≤ 0xD7FF) || (0xE000 ≤ n && n ≤ 0xFFFD) || 0x10000 ≤ n

def isSpace (c : Char) : Bool := c = ' ' || c = '\t'

def isBreak (c : Char) : Bool :=
  c = '\n' || c = '\r' || c = '\u0085' || c = '\u2028' || c = '\u2029'

def isSpaceOrBreak (c : Char) : Bool := isSpace c || isBreak c

def isWordChar (c : Char) : Bool := c.isAlphanum || c = '_' || c = '-'

/-- Whether a text ends here, or goes on with a space or a line break. -/
def endsWord : List Char → Bool
  | [] => true
  | c :: _ => isSpaceOrBreak c

def startsBreak : List Char → Bool
  | [] => false
  | c :: _ => isBreak c

/-- The text that is left, and where it starts. Lines and columns are counted from 0. -/
structure Cursor where
  rest : List Char
  /-- The bytes before this place. -/
  bytes : Nat
  line : Nat
  column : Nat

namespace Cursor

def ofChars (cs : List Char) : Cursor := ⟨cs, 0, 0, 0⟩

def head? (c : Cursor) : Option Char := c.rest.head?

def position (c : Cursor) : Position := ⟨c.line + 1, c.column + 1⟩

def fault (c : Cursor) (problem : Problem) (context : Context) (start : Position) : Fault :=
  ⟨problem, c.position, 0, some (context, start)⟩

def byteCount (cs : List Char) : Nat := cs.foldr (fun c n => c.utf8Size + n) 0

def skip (c : Cursor) (n : Nat) : Cursor :=
  ⟨c.rest.drop n, c.bytes + byteCount (c.rest.take n), c.line, c.column + n⟩

def takeWhile (p : Char → Bool) (c : Cursor) : List Char := c.rest.takeWhile p

/-- Passes over the characters from here on that a class has, none of them a line break. -/
def skipWhile (p : Char → Bool) (c : Cursor) : Cursor := c.skip (c.takeWhile p).length

/-- Passes over a line break, and says what it counts for: most of them for a newline. -/
def takeBreak (c : Cursor) : List Char × Cursor :=
  match c.rest with
  | '\r' :: '\n' :: rest => (['\n'], ⟨rest, c.bytes + 2, c.line + 1, 0⟩)
  | b :: rest =>
    let next : Cursor := ⟨rest, c.bytes + b.utf8Size, c.line + 1, 0⟩
    if b = '\u2028' || b = '\u2029' then ([b], next)
    else if isBreak b then (['\n'], next)
    else ([], c)
  | [] => ([], c)

def skipComment (c : Cursor) : Cursor :=
  if c.head? = some '#' then c.skipWhile (!isBreak ·) else c

/-- Passes over what may follow on a line after its last token. -/
def finishLine (c : Cursor) (context : Context) (start : Position) : Except Fault Cursor :=
  let c := (c.skipWhile isSpace).skipComment
  if c.rest.isEmpty || startsBreak c.rest then .ok c.takeBreak.2
  else .error (c.fault .noCommentOrBreak context start)

/-- Whether a marker between documents stands here: three of a character, and then a blank. -/
def isMarker (mark : Char) (c : Cursor) : Bool :=
  c.column = 0 && c.rest.take 3 == [mark, mark, mark] && endsWord (c.rest.drop 3)

def isDocumentEdge (c : Cursor) : Bool := c.isMarker '-' || c.isMarker '.'

end Cursor

end Songline.Yaml
