set_option autoImplicit false

namespace Songline.Text

/-- The ranges of the property `White_Space`, first and last code point included. -/
def blankRanges : List (Nat × Nat) :=
  [(0x09, 0x0D), (0x20, 0x20), (0x85, 0x85), (0xA0, 0xA0), (0x1680, 0x1680), (0x2000, 0x200A),
    (0x2028, 0x2029), (0x202F, 0x202F), (0x205F, 0x205F), (0x3000, 0x3000)]

def isBlank (c : Char) : Bool :=
  blankRanges.any fun (first, last) => first ≤ c.toNat && c.toNat ≤ last

def trimChars (cs : List Char) : List Char :=
  ((cs.dropWhile isBlank).reverse.dropWhile isBlank).reverse

def trim (s : String) : String := String.ofList (trimChars s.toList)

/-- The text before the first blank, and the text after it if there is one. -/
def splitAtBlank : List Char → List Char × Option (List Char)
  | [] => ([], none)
  | c :: cs =>
    if isBlank c then ([], some cs)
    else ((c :: (splitAtBlank cs).1), (splitAtBlank cs).2)

/-- The pieces of a text between newlines; a text without one is a single piece. -/
def splitNewlines : List Char → List (List Char)
  | [] => [[]]
  | c :: cs =>
    if c = '\n' then [] :: splitNewlines cs
    else
      match splitNewlines cs with
      | [] => [[c]]
      | piece :: pieces => (c :: piece) :: pieces

def dropReturn (cs : List Char) : List Char :=
  if cs.getLast? = some '\r' then cs.dropLast else cs

/-- The lines of a text. Each ends with a newline, before which one carriage return is not part of
the line; what follows the last newline is a line if it is not empty. -/
def lineChars (cs : List Char) : List (List Char) :=
  let pieces := splitNewlines cs
  let ended := pieces.dropLast.map dropReturn
  match pieces.getLast? with
  | some (c :: rest) => ended ++ [c :: rest]
  | _ => ended

def lines (s : String) : List String := (lineChars s.toList).map String.ofList

def padLeft (width : Nat) (s : String) : String :=
  String.ofList (List.replicate (width - s.length) ' ') ++ s

def padRight (width : Nat) (s : String) : String :=
  s ++ String.ofList (List.replicate (width - s.length) ' ')

end Songline.Text
