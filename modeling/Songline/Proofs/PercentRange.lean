import Songline.Proofs.SignedZero
import Songline.Score.Style

set_option autoImplicit false

/- Every number from 0 to 100 has a nearest whole percentage. No double below 100 is rounded to
more: what is more than a half above 99 is rounded to 100 itself, and nothing is cut off before.

The proofs are about `Float.Model`, in which a double is a sign, a mantissa and a power of two. -/
namespace Songline.Percent

open Float.Model (Format UnpackedFloat)
open Float.Model.UnpackedFloat

/-- A mantissa of at most 53 bits. -/
def Short : UnpackedFloat → Prop
  | .finite _ m _ _ => m < 2 ^ 53
  | _ => True

theorem short_unpack (b : BitVec Format.binary64.numBits) :
    Short (UnpackedFloat.unpack .binary64 b) := by
  have mantissa : (unpackMantissa b).toNat < 2 ^ 52 := (unpackMantissa b).isLt
  rw [UnpackedFloat.unpack]
  by_cases full : unpackExponent b = -1#_
  · rw [if_pos full]
    split <;> trivial
  · rw [if_neg full]
    by_cases least : unpackExponent b = 0#_
    · rw [if_pos least]
      split
      · trivial
      · show (unpackMantissa b).toNat < 2 ^ 53
        omega
    · rw [if_neg least]
      exact (1#1 ++ unpackMantissa b).isLt

def hundred : UnpackedFloat := .finite .positive 7036874417766400 (-46) (by decide)

theorem unpack_hundred : (100.0 : Float).toModel.unpack = hundred := rfl

/-- A number below 1 has nothing before the point, and the others have it before that many bits. -/
theorem roundToInt_of_neg (m : Nat) {e : Int} (negative : e < 0) :
    roundToInt .positive m e = ((m / 2 ^ (-e).toNat : Nat) : Int) := by
  have kept : decreaseExponent m e 0 = (m, e) := by
    have none : (e - 0).toNat = 0 := by omega
    simp only [decreaseExponent, none, Nat.shiftLeft_zero]
    simp
  have distance : (0 - e).toNat = (-e).toNat := by omega
  unfold roundToInt
  rw [kept]
  simp only [shiftToExponent, distance, SignedZero.mantissa_shiftRight]
  rfl

theorem roundToInt_negative_le (m : Nat) (e : Int) : roundToInt .negative m e ≤ 0 := by
  unfold roundToInt
  simp only [Sign.apply]
  omega

/-- What is at most 100 is less without its part after the point, or it is 100. -/
theorem toInt_of_le_hundred {x : UnpackedFloat} (short : Short x) (below : x.le hundred = true)
    (highest : Int) : x.toInt 0 highest < 100 ∨ x = hundred := by
  cases x with
  | notANumber => cases below
  | infinity s =>
      cases s with
      | positive => cases below
      | negative => exact Or.inl (show (0 : Int) < 100 by decide)
  | zero s => exact Or.inl (show (0 : Int) < 100 by decide)
  | finite s m e p =>
      cases s with
      | negative =>
          have negative := roundToInt_negative_le m e
          exact Or.inl (show roundToInt .negative m e < 100 by omega)
      | positive =>
          have small : m < 2 ^ 53 := short
          have order : ((compare e (-46)).then (compare m 7036874417766400)).isLE = true := below
          rcases Int.lt_trichotomy e (-46) with less | rfl | more
          · -- the least bit stands for so little that the number is below 64
            have enough : 2 ^ 47 ≤ 2 ^ (-e).toNat := Nat.pow_le_pow_right (by decide) (by omega)
            have quotient : m / 2 ^ (-e).toNat < 64 := by
              rw [Nat.div_lt_iff_lt_mul (Nat.two_pow_pos _)]
              omega
            refine Or.inl ?_
            show roundToInt .positive m e < 100
            rw [roundToInt_of_neg m (by omega)]
            omega
          · have atMost : m ≤ 7036874417766400 := by
              simpa [Nat.isLE_compare] using order
            rcases Nat.lt_or_eq_of_le atMost with fewer | rfl
            · refine Or.inl ?_
              show roundToInt .positive m (-46) < 100
              rw [roundToInt_of_neg m (by decide)]
              have bits : (-(-46 : Int)).toNat = 46 := rfl
              rw [bits]
              omega
            · exact Or.inr rfl
          · have greater : compare e (-46) = .gt := Int.compare_eq_gt.mpr more
            rw [greater] at order
            cases order

/-- A double that is at most 100 is less without its part after the point, or it is 100. -/
theorem toUInt64_of_le_hundred {x : Float} (below : x ≤ 100.0) :
    x.toUInt64.toNat < 100 ∨ x.toModel.unpack = hundred := by
  have short : Short x.toModel.unpack := short_unpack _
  have order : x.toModel.unpack.le (100.0 : Float).toModel.unpack = true := of_decide_eq_true below
  rw [unpack_hundred] at order
  rcases toInt_of_le_hundred short order (UInt64.size - 1) with less | same
  · refine Or.inl ?_
    let whole := (x.toModel.unpack.toInt 0 (UInt64.size - 1)).toNat
    have few : whole < 100 := by omega
    have fits : whole < UInt64.size := Nat.lt_trans few (by decide)
    have clamped : x.toUInt64 = UInt64.ofNatClamp whole := rfl
    rw [clamped, UInt64.ofNatClamp, dif_pos fits]
    exact few
  · exact Or.inr same

theorem roundToCount_le_hundred {x : Float} (below : x ≤ 100.0) :
    (Number.roundToCount x).toNat ≤ 100 := by
  unfold Number.roundToCount
  simp only
  rcases toUInt64_of_le_hundred below with less | same
  · have up : (x.toUInt64 + 1).toNat = x.toUInt64.toNat + 1 := by
      have one : (1 : UInt64).toNat = 1 := rfl
      rw [UInt64.toNat_add, one]
      exact Nat.mod_eq_of_lt (by omega)
    split
    · omega
    · omega
  · -- a difference is told by its terms as they are taken apart
    have whole : x.toUInt64 = 100 := by
      have taken : x.toUInt64 = x.toModel.unpack.toUInt64 := rfl
      rw [taken, same]
      decide
    have difference : x - (100 : UInt64).toFloat = 100.0 - (100 : UInt64).toFloat := by
      have taken : x - (100 : UInt64).toFloat = .ofModel (.pack (UnpackedFloat.sub .binary64
        x.toModel.unpack (100 : UInt64).toFloat.toModel.unpack)) := rfl
      rw [taken, same]
      rfl
    have exactly : ¬100.0 - (100 : UInt64).toFloat ≥ 0.5 := by decide
    rw [whole, difference]
    simp only [exactly, decide_false, Bool.and_false, Bool.false_eq_true, ↓reduceIte]
    decide

/-- A number is a percentage if and only if it is from 0 to 100. -/
theorem ofFloat?_isSome_iff (x : Float) : (ofFloat? x).isSome ↔ 0.0 ≤ x ∧ x ≤ 100.0 := by
  unfold ofFloat?
  by_cases inside : 0.0 ≤ x ∧ x ≤ 100.0
  · have few := roundToCount_le_hundred inside.2
    have fits : (Number.roundToCount x).toUInt8 ≤ 100 := by
      rw [UInt8.le_iff_toNat_le, UInt64.toNat_toUInt8]
      have bound : (100 : UInt8).toNat = 100 := rfl
      omega
    rw [if_pos inside, dif_pos fits]
    exact iff_of_true rfl inside
  · rw [if_neg inside]
    exact iff_of_false Bool.false_ne_true inside

end Songline.Percent
