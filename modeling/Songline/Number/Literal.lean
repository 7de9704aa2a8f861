import Songline.Number.Shortest

set_option autoImplicit false

namespace Songline

/-- A decimal number with a sign. -/
structure SignedDecimal where
  negative : Bool
  magnitude : Decimal
deriving DecidableEq, Repr

namespace Literal

/-- The value of a digit of bases up to 16. -/
def digitValue? (base : Nat) (c : Char) : Option Nat :=
  let value :=
    if c.isDigit then some (c.toNat - '0'.toNat)
    else if 'a' ≤ c && c ≤ 'f' then some (c.toNat - 'a'.toNat + 10)
    else if 'A' ≤ c && c ≤ 'F' then some (c.toNat - 'A'.toNat + 10)
    else none
  value.filter (· < base)

/-- The number that digits spell, if there are any and nothing else. -/
def digits? (base : Nat) (cs : List Char) : Option Nat :=
  if cs.isEmpty then none
  else (cs.mapM (digitValue? base)).map (·.foldl (fun n d => n * base + d) 0)

def count? (base : Nat) (cs : List Char) : Option UInt64 :=
  ((digits? base cs).filter (· < UInt64.size)).map UInt64.ofNat

def dropPlus (cs : List Char) : List Char := if cs.head? = some '+' then cs.tail else cs

def takeSign (cs : List Char) : Bool × List Char :=
  match cs with
  | '-' :: rest => (true, rest)
  | '+' :: rest => (false, rest)
  | _ => (false, cs)

/-- An exponent: none, or `e`, a sign that may be left out, and digits. -/
def exponent? (cs : List Char) : Option Int :=
  match cs with
  | [] => some 0
  | e :: rest =>
    if e = 'e' || e = 'E' then
      let (negative, ds) := takeSign rest
      (digits? 10 ds).map fun n => if negative then -(n : Int) else n
    else none

/-- A decimal number: digits, of which some may stand after a point, and an exponent. -/
def decimal? (cs : List Char) : Option SignedDecimal := do
  let (negative, cs) := takeSign cs
  let whole := cs.takeWhile Char.isDigit
  let tail := cs.dropWhile Char.isDigit
  let pointed := tail.head? = some '.'
  let places := if pointed then tail.tail.takeWhile Char.isDigit else []
  let tail := if pointed then tail.tail.dropWhile Char.isDigit else tail
  let n ← digits? 10 (whole ++ places)
  let e ← exponent? tail
  some ⟨negative, n, e - places.length⟩

/-- Numbers of more digits before the point are infinite, and numbers of more zeros after it are
zero, in doubles as in singles. -/
def extreme : Int := 400

/-- What stands for a decimal number in a format of binary numbers, given that of `m * 10 ^ e` with
`e` not far from zero. -/
def approximate {α : Type} (zero infinite : α) (nearest : Nat → Int → α) (d : Decimal) : α :=
  let top := (Nat.toDigits 10 d.digits).length + d.exponent
  if d.digits = 0 || top < -extreme then zero
  else if top > extreme then infinite
  else nearest d.digits d.exponent

/-- The nearest double. -/
def toFloat (d : SignedDecimal) : Float :=
  let x :=
    approximate 0.0 (1.0 / 0.0) (fun n e => Float.ofScientific n (e < 0) e.natAbs) d.magnitude
  if d.negative then -x else x

/-- The nearest single. -/
def toFloat32 (d : SignedDecimal) : Float32 :=
  let x :=
    approximate 0.0 (1.0 / 0.0) (fun n e => Float32.ofScientific n (e < 0) e.natAbs) d.magnitude
  if d.negative then -x else x

/-- Words for what no decimal number stands for, in letters of either case. -/
def special? (word : String) : Option Float32 :=
  if word = "inf" || word = "infinity" then some (1.0 / 0.0)
  else if word = "nan" then some (0.0 / 0.0)
  else none

/-- The single that a text spells: a decimal number, or a word. -/
def float32? (s : String) : Option Float32 :=
  let (negative, rest) := takeSign s.toList
  match special? (String.ofList (rest.map Char.toLower)) with
  | some x => some (if negative then -x else x)
  | none => (decimal? s.toList).map toFloat32

/-- The count that a text spells, which a plus sign may precede. -/
def uint64? (s : String) : Option UInt64 := count? 10 (dropPlus s.toList)

end Literal

end Songline
