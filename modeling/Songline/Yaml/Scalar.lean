import Songline.Yaml.Cursor

set_option autoImplicit false

/- Scalars: plain ones, quoted ones and blocks. Each is read from where it starts, and gives its
text and the place after it. Texts are kept latest character first while they are read, and numbers
bound how many characters are left. -/
namespace Songline.Yaml

inductive Style
  | plain
  | singleQuoted
  | doubleQuoted
  | literal
  | folded
deriving DecidableEq, Repr

/-- The spaces and line breaks between two words. Spaces after a break do not count. -/
structure Gap where
  spaces : List Char
  breaks : List Char

namespace Gap

def empty : Gap := ⟨[], []⟩

/-- What a gap stands for: a single break for a space, others for those after the first. -/
def text (g : Gap) : List Char :=
  match g.breaks with
  | [] => g.spaces
  | '\n' :: [] => [' ']
  | '\n' :: more => more
  | breaks => breaks

/-- Reads a gap. A tab left of `indent`, which only plain scalars have, is refused on all but the
first line; `broken` says that a break has passed. -/
def read (indent : Nat) (start : Position) (broken : Bool) :
    Nat → Gap → Cursor → Except Fault (Gap × Cursor)
  | 0, g, c => .ok (g, c)
  | n + 1, g, c =>
    match c.rest with
    | [] => .ok (g, c)
    | x :: _ =>
      if isSpace x then
        if !broken then
          let spaces := c.takeWhile isSpace
          read indent start broken n { g with spaces := g.spaces ++ spaces } (c.skip spaces.length)
        else if x = '\t' && c.column < indent then
          .error (c.fault .tabBeforeIndentation .plain start)
        else read indent start broken n g (c.skip 1)
      else if isBreak x then
        let (b, c) := c.takeBreak
        read indent start true n { g with breaks := g.breaks ++ b } c
      else .ok (g, c)

end Gap

/-- A scalar's text, the place after it, and whether that place follows a line break. -/
structure ScalarText where
  text : List Char
  next : Cursor
  brokeLine : Bool

/-- A scalar whose text is given latest character first. -/
def ScalarText.ofReversed (text : List Char) (next : Cursor) (brokeLine : Bool) : ScalarText :=
  ⟨text.reverse, next, brokeLine⟩

/-- Characters that end a plain scalar within brackets. -/
def isFlowIndicator (c : Char) : Bool := c = ',' || c = '[' || c = ']' || c = '{' || c = '}'

/-- What a character inside a plain scalar does to it. -/
inductive PlainStep
  | goesOn
  | ends
  /-- A colon that brackets would make ambiguous. -/
  | refused
deriving DecidableEq, Repr

/-- What a character before some text does to a plain scalar. -/
def plainStep (flow : Bool) (x : Char) (after : List Char) : PlainStep :=
  if isSpaceOrBreak x then .ends
  else if flow && x = ':' && after.head?.any (fun y => y = '?' || isFlowIndicator y) then .refused
  else if x = ':' && endsWord after then .ends
  else if flow && isFlowIndicator x then .ends
  else .goesOn

/-- The characters of a plain scalar from here to the next blank or indicator, and whether a
character after them is refused. -/
def plainWord (flow : Bool) : List Char → List Char × Bool
  | [] => ([], false)
  | x :: rest =>
    match plainStep flow x rest with
    | .goesOn =>
      let (word, refused) := plainWord flow rest
      (x :: word, refused)
    | .ends => ([], false)
    | .refused => ([], true)

/-- Reads a plain scalar's words. Outside of brackets, lines must start at `indent` or further
right. -/
def readPlain (flow : Bool) (indent : Nat) (start : Position) :
    Nat → List Char → Gap → Bool → Cursor → Except Fault ScalarText
  | 0, text, _, broke, c => .ok (.ofReversed text c broke)
  | n + 1, text, gap, broke, c =>
    if c.isDocumentEdge || c.head? = some '#' then .ok (.ofReversed text c broke)
    else do
      let (word, refused) := plainWord flow c.rest
      let text := if word.isEmpty then text else word.reverse ++ (gap.text.reverse ++ text)
      let gap := if word.isEmpty then gap else .empty
      let broke := broke && word.isEmpty
      let c := c.skip word.length
      if refused then .error (c.fault .unexpectedColon .plain start)
      match c.rest with
      | [] => .ok (.ofReversed text c broke)
      | x :: _ =>
        if !isSpaceOrBreak x then .ok (.ofReversed text c broke)
        else
          let (gap, c) ← gap.read indent start broke n c
          let broke := !gap.breaks.isEmpty
          if !flow && c.column < indent then .ok (.ofReversed text c broke)
          else readPlain flow indent start n text gap broke c

/-- Reads a plain scalar from its first character on. -/
def plainScalar (fuel : Nat) (flow : Bool) (indent : Nat) (c : Cursor) : Except Fault ScalarText :=
  readPlain flow indent c.position fuel [] .empty false c

def hexValue? (c : Char) : Option Nat :=
  if c.isDigit then some (c.toNat - '0'.toNat)
  else if 'a' ≤ c && c ≤ 'f' then some (c.toNat - 'a'.toNat + 10)
  else if 'A' ≤ c && c ≤ 'F' then some (c.toNat - 'A'.toNat + 10)
  else none

/-- The character that so many hexadecimal digits name, and how many they are. -/
def hexEscape (digits : Nat) (cs : List Char) : Except Problem (Char × Nat) :=
  match (cs.take digits).mapM hexValue? with
  | none => .error .noHexDigit
  | some values =>
    let code := values.foldl (fun n d => n * 16 + d) 0
    if values.length ≠ digits then .error .noHexDigit
    else if code.isValidChar then .ok (Char.ofNat code, digits)
    else .error .noSuchCharacter

/-- The character that an escape names, and how many characters spell it after the backslash. What
is wrong with it is found after so many of them. -/
def escape : List Char → Except (Problem × Nat) (Char × Nat)
  | [] => .error (.unknownEscape, 0)
  | x :: rest =>
    let single (c : Char) : Except (Problem × Nat) (Char × Nat) := .ok (c, 1)
    let coded (digits : Nat) : Except (Problem × Nat) (Char × Nat) :=
      match hexEscape digits rest with
      | .ok (c, n) => .ok (c, n + 1)
      | .error problem => .error (problem, 2)
    match x with
    | '0' => single '\x00'
    | 'a' => single '\x07'
    | 'b' => single '\x08'
    | 't' => single '\t'
    | '\t' => single '\t'
    | 'n' => single '\n'
    | 'v' => single '\x0B'
    | 'f' => single '\x0C'
    | 'r' => single '\r'
    | 'e' => single '\x1B'
    | ' ' => single ' '
    | '"' => single '"'
    | '/' => single '/'
    | '\\' => single '\\'
    | 'N' => single '\u0085'
    | '_' => single '\u00A0'
    | 'L' => single '\u2028'
    | 'P' => single '\u2029'
    | 'x' => coded 2
    | 'u' => coded 4
    | 'U' => coded 8
    | _ => .error (.unknownEscape, 0)

/-- What is known after a word of a quoted scalar, which ends before a blank or the closing quote,
or with an escaped line break: the text so far, and the place after the word. -/
structure QuotedWord where
  text : List Char
  next : Cursor
  escapedBreak : Bool

def readQuotedWord (double : Bool) (start : Position) :
    Nat → List Char → Cursor → Except Fault QuotedWord
  | 0, text, c => .ok ⟨text, c, false⟩
  | n + 1, text, c =>
    match c.rest with
    | [] => .ok ⟨text, c, false⟩
    | x :: after =>
      if isSpaceOrBreak x then .ok ⟨text, c, false⟩
      else if !double && x = '\'' then
        if after.head? = some '\'' then readQuotedWord double start n ('\'' :: text) (c.skip 2)
        else .ok ⟨text, c, false⟩
      else if double && x = '"' then .ok ⟨text, c, false⟩
      else if double && x = '\\' then
        if startsBreak after then .ok ⟨text, (c.skip 1).takeBreak.2, true⟩
        else
          match escape after with
          | .ok (y, spelt) => readQuotedWord double start n (y :: text) (c.skip (spelt + 1))
          | .error (problem, passed) => .error ((c.skip passed).fault problem .escape start)
      else readQuotedWord double start n (x :: text) (c.skip 1)

def readQuoted (double : Bool) (start : Position) :
    Nat → List Char → Cursor → Except Fault ScalarText
  | 0, _, c => .error (c.fault .earlyEnd .quoted start)
  | n + 1, text, c => do
    if c.isDocumentEdge then .error (c.fault .documentEdge .quoted start)
    if c.rest.isEmpty then .error (c.fault .earlyEnd .quoted start)
    let word ← readQuotedWord double start n text c
    let c := word.next
    if c.head? = some (if double then '"' else '\'') then
      .ok (.ofReversed word.text (c.skip 1) false)
    else
      let (gap, c) ← Gap.empty.read 0 start word.escapedBreak n c
      let joined := if word.escapedBreak then gap.breaks else gap.text
      readQuoted double start n (joined.reverse ++ word.text) c

/-- Reads a quoted scalar from its opening quote on. -/
def quotedScalar (fuel : Nat) (double : Bool) (c : Cursor) : Except Fault ScalarText :=
  readQuoted double c.position fuel [] (c.skip 1)

/-- What happens to the line breaks at the end of a block. -/
inductive Chomping
  | strip
  | clip
  | keep
deriving DecidableEq, Repr

def Chomping.ofChar? : Char → Option Chomping
  | '+' => some .keep
  | '-' => some .strip
  | _ => none

def digit? (c : Char) : Option Nat := if c.isDigit then some (c.toNat - '0'.toNat) else none

/-- The header of a block after its indicator: chomping and the indentation, in either order, and
how many characters spell them. An indentation of 0 is refused, after so many of them. -/
def blockHeader (cs : List Char) : Except Nat (Chomping × Option Nat × Nat) :=
  match cs with
  | [] => .ok (.clip, none, 0)
  | x :: rest =>
    match Chomping.ofChar? x, digit? x with
    | some chomping, _ =>
      match rest.head?.bind digit? with
      | some 0 => .error 1
      | some n => .ok (chomping, some n, 2)
      | none => .ok (chomping, none, 1)
    | none, some 0 => .error 0
    | none, some n =>
      match rest.head?.bind Chomping.ofChar? with
      | some chomping => .ok (chomping, some n, 2)
      | none => .ok (.clip, some n, 1)
    | none, none => .ok (.clip, none, 0)

/-- Reads the breaks of empty lines and the spaces before a line, and gives the largest column that
was reached. No indentation means that all spaces are read. -/
def readBlockGap (indent : Option Nat) (start : Position) :
    Nat → Nat → List Char → Cursor → Except Fault (Nat × List Char × Cursor)
  | 0, widest, breaks, c => .ok (widest, breaks, c)
  | n + 1, widest, breaks, c =>
    let within := indent.all (c.column < ·)
    match c.rest with
    | ' ' :: _ =>
      if within then readBlockGap indent start n widest breaks (c.skip 1)
      else .ok (max widest c.column, breaks, c)
    | '\t' :: _ =>
      if within then .error (c.fault .tabAsIndentation .block start)
      else .ok (max widest c.column, breaks, c)
    | x :: _ =>
      if isBreak x then
        let (b, next) := c.takeBreak
        readBlockGap indent start n (max widest c.column) (breaks ++ b) next
      else .ok (max widest c.column, breaks, c)
    | [] => .ok (max widest c.column, breaks, c)

/-- A block while its lines are read: the text so far, the break after the last line, the breaks of
empty lines after that, and whether the last line started with a blank. -/
structure BlockState where
  text : List Char
  lineBreak : List Char
  trailing : List Char
  startsBlank : Bool

def BlockState.joined (s : BlockState) (folded blank : Bool) : List Char :=
  let lineBreak :=
    if folded && s.lineBreak.head? = some '\n' && !s.startsBlank && !blank then
      if s.trailing.isEmpty then [' '] else []
    else s.lineBreak
  s.trailing.reverse ++ (lineBreak.reverse ++ s.text)

def readBlock (folded : Bool) (indent : Nat) (start : Position) :
    Nat → BlockState → Cursor → Except Fault (BlockState × Cursor)
  | 0, s, c => .ok (s, c)
  | n + 1, s, c =>
    match c.rest with
    | [] => .ok (s, c)
    | x :: _ =>
      if c.column ≠ indent then .ok (s, c)
      else do
        let blank := isSpace x
        let line := c.takeWhile (!isBreak ·)
        let (lineBreak, next) := (c.skip line.length).takeBreak
        let (_, trailing, next) ← readBlockGap (some indent) start n 0 [] next
        let text := line.reverse ++ s.joined folded blank
        readBlock folded indent start n ⟨text, lineBreak, trailing, blank⟩ next

/-- Reads a block from its indicator on. `parent` is the column of the collection around it, if
there is one; lines stand to the right of it. -/
def blockScalar (fuel : Nat) (folded : Bool) (parent : Option Nat) (c : Cursor) :
    Except Fault ScalarText := do
  let start := c.position
  let c := c.skip 1
  let (chomping, digit, spelt) ← match blockHeader c.rest with
    | .ok header => .ok header
    | .error passed => .error ((c.skip passed).fault .zeroIndentation .block start)
  let c ← (c.skip spelt).finishLine .block start
  let given := digit.map (parent.getD 0 + ·)
  let (widest, trailing, c) ← readBlockGap given start fuel 0 [] c
  let least := match parent with
    | some column => max 1 (column + 1)
    | none => 1
  let indent := given.getD (max widest least)
  let (s, c) ← readBlock folded indent start fuel ⟨[], [], trailing, false⟩ c
  let tail :=
    match chomping with
    | .strip => []
    | .clip => s.lineBreak
    | .keep => s.lineBreak ++ s.trailing
  .ok (.ofReversed (tail.reverse ++ s.text) c true)

end Songline.Yaml
