import Songline.Number.Binary

set_option autoImplicit false

namespace Songline

/-- The number `digits * 10 ^ exponent`. -/
structure Decimal where
  digits : Nat
  exponent : Int
deriving DecidableEq, Repr

namespace Decimal

/-- Numerator and denominator of `digits * 10 ^ exponent`. -/
def ratio (d : Decimal) : Nat × Nat :=
  (d.digits * Nat.pow 10 d.exponent.toNat, Nat.pow 10 (-d.exponent).toNat)

/-- The text of a whole number whose last `places` digits stand after the point. -/
def placed (n places : Nat) : String :=
  if places = 0 then toString n
  else
    let ds := Nat.toDigits 10 n
    let padded := List.replicate (places + 1 - ds.length) '0' ++ ds
    String.ofList (padded.take (padded.length - places)) ++ "." ++
      String.ofList (padded.drop (padded.length - places))

/-- All digits in their places, without an exponent. -/
def text (d : Decimal) : String :=
  if d.exponent < 0 then placed d.digits (-d.exponent).toNat
  else toString (d.digits * Nat.pow 10 d.exponent.toNat)

end Decimal

namespace Binary

/-- The reals that round to a double, in quarters of its last place. Both ends belong to the
interval when the mantissa is even. -/
structure Interval where
  low : Nat
  high : Nat
  exponent : Int
  closed : Bool

def interval (b : Binary) : Interval :=
  ⟨4 * b.mantissa - (if b.isBoundary then 1 else 2), 4 * b.mantissa + 2, b.exponent - 2,
    b.mantissa % 2 = 0⟩

def compareRatio (a b : Nat × Nat) : Ordering := compare (a.1 * b.2) (b.1 * a.2)

def Interval.contains (i : Interval) (d : Decimal) : Bool :=
  let above := compareRatio d.ratio (ratio i.low i.exponent)
  let below := compareRatio d.ratio (ratio i.high i.exponent)
  (above == .gt || (i.closed && above == .eq)) && (below == .lt || (i.closed && below == .eq))

/-- The decimal on the grid of `10 ^ exponent` that reads back as the double and is nearest to it,
the upper one of two equally near. -/
def onGrid? (b : Binary) (exponent : Int) : Option Decimal :=
  let (num, den) := ratio b.mantissa b.exponent
  let (gridNum, gridDen) := Decimal.ratio ⟨1, exponent⟩
  let num := num * gridDen
  let den := den * gridNum
  let lower : Decimal := ⟨num / den, exponent⟩
  let upper : Decimal := ⟨num / den + 1, exponent⟩
  let lowerHits := lower.digits ≠ 0 && b.interval.contains lower
  let upperHits := b.interval.contains upper
  if lowerHits && upperHits then
    some (if 2 * (num % den) < den then lower else upper)
  else if lowerHits then some lower
  else if upperHits then some upper
  else none

/-- The first of the grids of `10 ^ top`, `10 ^ (top - 1)`, … that has a decimal for the double. -/
def firstGrid (b : Binary) (top : Int) : Nat → Decimal
  | 0 => ⟨b.mantissa, b.exponent⟩
  | steps + 1 => (b.onGrid? top).getD (firstGrid b (top - 1) steps)

/-- The shortest decimal that reads back as a double. The first grid tried is too coarse: its step
is more than the value. Twenty steps reach eighteen digits, and seventeen always suffice. -/
def shortest (b : Binary) : Decimal :=
  if b.mantissa = 0 then ⟨0, 0⟩
  else
    let bitLength : Int := Nat.log2 b.mantissa + 1 + b.exponent
    b.firstGrid (bitLength * 30103 / 100000 + 1) 20

/-- The value with `places` digits after the point; a half goes to the even neighbour. -/
def fixed (b : Binary) (places : Nat) : String :=
  let (num, den) := ratio b.mantissa b.exponent
  let num := num * Nat.pow 10 places
  let quotient := num / den
  let rest := 2 * (num % den)
  Decimal.placed
    (if rest < den || (rest = den && quotient % 2 = 0) then quotient else quotient + 1) places

end Binary

namespace Number

/-- How a double is written: a sign, then what its kind asks for. -/
def write (finite : Binary → String) (x : Float) : String :=
  let signed (negative : Bool) (s : String) := if negative then "-" ++ s else s
  match Binary.kind x with
  | .nan => "NaN"
  | .infinite negative => signed negative "inf"
  | .finite negative b => signed negative (finite b)

/-- The fewest digits that read back as the same double. -/
def text (x : Float) : String := write (fun b => b.shortest.text) x

def fixedText (places : Nat) (x : Float) : String := write (fun b => b.fixed places) x

end Number

end Songline
