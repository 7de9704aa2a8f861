set_option autoImplicit false

namespace Songline

/-- The magnitude `mantissa * 2 ^ exponent`. -/
structure Binary where
  mantissa : Nat
  exponent : Int
deriving DecidableEq, Repr

/-- The value of a double, by kind. -/
inductive Binary.Kind
  | nan
  | infinite (negative : Bool)
  | finite (negative : Bool) (magnitude : Binary)
deriving DecidableEq, Repr

namespace Binary

/-- The least mantissa of full width: 53 bits. -/
def fullWidth : Nat := 0x10000000000000

/-- The kind of the double with the given bits: 52 of mantissa, 11 of exponent and a sign. -/
def kindOfBits (bits : UInt64) : Kind :=
  let negative : Bool := (bits >>> 63).toNat == 1
  let biased : Nat := ((bits >>> 52) &&& 0x7FF).toNat
  let fraction : Nat := (bits &&& 0xFFFFFFFFFFFFF).toNat
  if biased = 2047 then
    if fraction = 0 then .infinite negative else .nan
  else if biased = 0 then .finite negative ⟨fraction, -1074⟩
  else .finite negative ⟨fullWidth + fraction, (biased : Int) - 1075⟩

def kind (x : Float) : Kind := kindOfBits x.toBits

/-- The smallest mantissa of full width; below it the neighbouring double is closer, except at the
least exponent. -/
def isBoundary (b : Binary) : Bool := b.mantissa = fullWidth && b.exponent ≠ -1074

/-- Numerator and denominator of `mantissa * 2 ^ exponent`. -/
def ratio (mantissa : Nat) (exponent : Int) : Nat × Nat :=
  (mantissa * Nat.pow 2 exponent.toNat, Nat.pow 2 (-exponent).toNat)

end Binary

namespace Number

/-- The nearest 64-bit count, a half going up. Anything below a half, and what is no number, is 0;
anything too large is the largest count. From `2 ^ 52` on every double is whole. -/
def roundToCount (x : Float) : UInt64 :=
  let whole := x.toUInt64
  if x < 4503599627370496.0 && x - whole.toFloat ≥ 0.5 then whole + 1 else whole

section Order

open Float.Model (UnpackedFloat)

theorem compare_swap (x y : UnpackedFloat) : x.compare y = (y.compare x).map Ordering.swap := by
  cases x with
  | notANumber => cases y <;> rfl
  | infinity s =>
      cases y with
      | infinity t => cases s <;> cases t <;> rfl
      | _ => cases s <;> rfl
  | zero s =>
      cases y with
      | infinity t | finite t => cases t <;> rfl
      | _ => rfl
  | finite s m e =>
      cases y with
      | notANumber => rfl
      | infinity t => cases t <;> rfl
      | zero t => cases s <;> rfl
      | finite t n f =>
          have same : (compare e f).then (compare m n) =
              ((compare f e).then (compare n m)).swap := by
            rw [Ordering.swap_then, ← Std.OrientedCmp.eq_swap, ← Std.OrientedCmp.eq_swap]
          cases s with
          | positive =>
              cases t with
              | positive => exact congrArg some same
              | negative => rfl
          | negative =>
              cases t with
              | positive => rfl
              | negative => exact congrArg (fun order => some order.swap) same

theorem exists_compare {x y : UnpackedFloat} (left : x.isNaN = false) (right : y.isNaN = false) :
    ∃ order, x.compare y = some order := by
  unfold UnpackedFloat.compare
  split
  · cases left
  · cases right
  all_goals exact ⟨_, rfl⟩

theorem le_of_not_lt {x y : Float32} (left : x.isNaN = false) (right : y.isNaN = false)
    (other : ¬ y < x) : x ≤ y := by
  change ¬ decide (y.toModel.unpack.lt x.toModel.unpack = true) = true at other
  change decide (x.toModel.unpack.le y.toModel.unpack = true) = true
  rw [decide_eq_true_eq] at other ⊢
  obtain ⟨order, compared⟩ := exists_compare left right
  rw [UnpackedFloat.lt, compare_swap, compared] at other
  rw [UnpackedFloat.le, compared]
  cases order with
  | gt => exact absurd rfl other
  | lt | eq => rfl

end Order

/-- Moves a sample into the range from 0 to 1; what is no number stays. -/
def clampUnit (x : Float32) : Float32 :=
  if x < 0.0 then 0.0 else if x > 1.0 then 1.0 else x

theorem clampUnit_clampUnit (x : Float32) : clampUnit (clampUnit x) = clampUnit x := by
  by_cases low : x < 0.0
  · have least : clampUnit x = 0.0 := if_pos low
    rw [least]
    decide
  · by_cases high : x > 1.0
    · have greatest : clampUnit x = 1.0 := by rw [clampUnit, if_neg low, if_pos high]
      rw [greatest]
      decide
    · have same : clampUnit x = x := by rw [clampUnit, if_neg low, if_neg high]
      rw [same, same]

theorem clampUnit_range {x : Float32} (number : x.isNaN = false) :
    0.0 ≤ clampUnit x ∧ clampUnit x ≤ 1.0 := by
  unfold clampUnit
  split
  · decide
  · rename_i low
    split
    · decide
    · rename_i high
      exact ⟨le_of_not_lt rfl number low, le_of_not_lt number rfl high⟩

/-- The part of a double after the point, with the double's sign. -/
def fraction (x : Float) : Float :=
  if x < 0.0 then x - x.ceil else x - x.floor

end Number

end Songline
