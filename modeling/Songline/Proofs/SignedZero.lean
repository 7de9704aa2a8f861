import Mathlib

set_option autoImplicit false

/- There are two zeros among the floating-point numbers, and adding the positive one to the negative
one gives the positive one. Nothing else is changed by adding zero to it. A sum that begins with the
positive zero is never the negative one, so silence may be mixed under it unheard.

The proofs are about `Float32.Model`: what is written in 32 bits is taken apart, added as a sign, a
mantissa and a power of two, rounded, and put together again. -/
namespace Songline.SignedZero

open Float.Model (Format UnpackedFloat totalExponent)
open Float.Model.UnpackedFloat

theorem exponentBias_binary32 : (Format.binary32.exponentBias : Int) = 127 := rfl

section Rounding

/-- A mantissa of at most 24 bits, and no less than the least exponent. -/
def Fits : UnpackedFloat → Prop
  | .finite _ m e _ => m < 2 ^ 24 ∧ -149 ≤ e
  | _ => True

theorem fits_unpack (b : BitVec Format.binary32.numBits) :
    Fits (UnpackedFloat.unpack .binary32 b) := by
  have mantissa : (unpackMantissa b).toNat < 2 ^ 23 := (unpackMantissa b).isLt
  have bias := exponentBias_binary32
  rw [UnpackedFloat.unpack]
  by_cases full : unpackExponent b = -1#_
  · rw [if_pos full]
    split <;> trivial
  · rw [if_neg full]
    by_cases least : unpackExponent b = 0#_
    · rw [if_pos least]
      split
      · trivial
      · rw [least, bias]
        exact ⟨by omega, by decide⟩
    · have positive : (unpackExponent b).toNat ≠ 0 := fun same => least (BitVec.eq_of_toNat_eq same)
      rw [if_neg least, bias]
      constructor
      · exact (1#1 ++ unpackMantissa b).isLt
      · simp only
        omega

theorem mantissa_shiftRight (em : ExtendedMantissa) (k : Nat) :
    (em >>> k).mantissa = em.mantissa / 2 ^ k := by
  induction k with
  | zero => exact (Nat.div_one em.mantissa).symm
  | succ k ih =>
      show (em >>> k).mantissa / 2 = em.mantissa / 2 ^ (k + 1)
      rw [ih, Nat.div_div_eq_div_mul, Nat.pow_succ]

theorem le_roundedMantissa (em : ExtendedMantissa) : em.mantissa ≤ em.roundedMantissa := by
  obtain ⟨m, half, rest⟩ := em
  cases half <;> cases rest <;>
    simp [ExtendedMantissa.roundedMantissa, ExtendedMantissa.accuracy, Accuracy.roundToNearestEven]

/-- What is shifted to its exponent keeps its first bit, and no more bits than there is room for. -/
theorem fits_shift (m : Nat) (positive : 0 < m) (e : Int) (least : -149 ≤ e) :
    let shifted := shiftToTargetExponent .binary32 m e .exact
    0 < shifted.1.mantissa ∧ shifted.1.mantissa < 2 ^ 24 ∧ -149 ≤ shifted.2 := by
  intro shifted
  let k := (Format.binary32.targetExponent (totalExponent m e) - e).toNat
  have target : Format.binary32.targetExponent (totalExponent m e) =
      max (m.log2 + 1 + e - 24) (-149) := rfl
  have quotient : shifted.1.mantissa = m / 2 ^ k := mantissa_shiftRight _ k
  have lower : 2 ^ m.log2 ≤ m := Nat.log2_self_le (Nat.ne_of_gt positive)
  have upper : m < 2 ^ (m.log2 + 1) := Nat.lt_log2_self
  rw [quotient]
  refine ⟨?_, ?_, ?_⟩
  · have few : 2 ^ k ≤ 2 ^ m.log2 := Nat.pow_le_pow_right (by decide) (by omega)
    exact Nat.div_pos (Nat.le_trans few lower) (Nat.two_pow_pos k)
  · have enough : 2 ^ (m.log2 + 1) ≤ 2 ^ (24 + k) := Nat.pow_le_pow_right (by decide) (by omega)
    rw [Nat.div_lt_iff_lt_mul (Nat.two_pow_pos k), ← Nat.pow_add]
    exact Nat.lt_of_lt_of_le upper enough
  · show -149 ≤ e + (k : Int)
    omega

/-- Nothing is rounded to zero that has no less than the least exponent. -/
theorem fits_round (s : Sign) (m : Nat) (positive : 0 < m) (e : Int) (least : -149 ≤ e) :
    ∃ m' e' positive', UnpackedFloat.round .binary32 s m e = .finite s m' e' positive' ∧
      Fits (.finite s m' e' positive') := by
  let target := Format.binary32.targetExponent (totalExponent m e)
  let aligned := decreaseExponent m e target
  have lowest : -149 ≤ target := Int.le_max_right _ _
  have alignedPositive : 0 < aligned.1 := by
    show 0 < m <<< (e - target).toNat
    rw [Nat.shiftLeft_eq]
    exact Nat.mul_pos positive (Nat.two_pow_pos _)
  have alignedLeast : -149 ≤ aligned.2 := by
    show -149 ≤ e - ((e - target).toNat : Int)
    omega
  -- The mantissa is shifted, rounded up or down, and shifted once more if that gave it a bit.
  let first := shiftToTargetExponent .binary32 aligned.1 aligned.2 .exact
  obtain ⟨firstPositive, -, firstLeast⟩ :=
    fits_shift aligned.1 alignedPositive aligned.2 alignedLeast
  have rounded : 0 < first.1.roundedMantissa :=
    Nat.lt_of_lt_of_le firstPositive (le_roundedMantissa first.1)
  let second := shiftToTargetExponent .binary32 first.1.roundedMantissa first.2 .exact
  obtain ⟨secondPositive, below, secondLeast⟩ := fits_shift _ rounded first.2 firstLeast
  exact ⟨second.1.mantissa, second.2, secondPositive, dif_neg (Nat.ne_of_gt secondPositive), below,
    secondLeast⟩

end Rounding

section Sums

/-- Only a zero is written as a zero. -/
theorem pack_ne_zero {s : Sign} {m : Nat} {e : Int} {positive : 0 < m} (zero : Sign)
    (fits : Fits (.finite s m e positive)) :
    UnpackedFloat.pack .binary32 (.finite s m e positive) ≠ packedZero .binary32 zero := by
  obtain ⟨below, least⟩ := fits
  have bias := exponentBias_binary32
  intro same
  have exponents := congrArg (fun b => (unpackExponent b).toNat) same
  have mantissas := congrArg (fun b => (unpackMantissa b).toNat) same
  simp only [UnpackedFloat.pack, packedZero, unpackExponent_packComponents,
    unpackMantissa_packComponents] at exponents mantissas
  split at exponents
  -- It is too large, and written as infinity.
  · simp only [packedInfinity, unpackExponent_packComponents] at exponents
    exact absurd exponents (by decide)
  · rename_i small
    rw [if_neg small] at mantissas
    split at exponents
    · simp only [unpackExponent_packComponents, BitVec.toNat_ofNat] at exponents
      change _ = 0 at exponents
      omega
    -- A mantissa that is too short for an exponent is written as it is.
    · rename_i short
      have longest : m.log2 < 24 := (Nat.log2_lt (Nat.ne_of_gt positive)).mpr below
      have width : Format.binary32.mantissaBits = 24 := rfl
      have fewer : m < 2 ^ 23 := (Nat.log2_lt (Nat.ne_of_gt positive)).mp (by omega)
      simp only [if_neg short, unpackMantissa_packComponents, BitVec.toNat_ofNat] at mantissas
      change m % 2 ^ 23 = 0 at mantissas
      omega

/-- Where a sum cancels, the zero is the positive one. -/
theorem pack_normalize_ne_zero (m e : Int) (least : -149 ≤ e) :
    UnpackedFloat.pack .binary32 (UnpackedFloat.normalize .binary32 m e .positive) ≠
      packedZero .binary32 .negative := by
  have rounded : ∀ s n, 0 < n →
      UnpackedFloat.pack .binary32 (UnpackedFloat.round .binary32 s n e) ≠
        packedZero .binary32 .negative := by
    intro s n positive
    obtain ⟨m', e', positive', eq, fits⟩ := fits_round s n positive e least
    rw [eq]
    exact pack_ne_zero .negative fits
  unfold UnpackedFloat.normalize
  cases order : compare m 0 with
  | lt =>
      have negative : m < 0 := Int.compare_eq_lt.mp order
      exact rounded .negative (-m).toNat (by omega)
  | eq =>
      show UnpackedFloat.pack .binary32 (.zero .positive) ≠ packedZero .binary32 .negative
      decide
  | gt =>
      have positive : 0 < m := Int.compare_eq_gt.mp order
      exact rounded .positive m.toNat (by omega)

/-- A sum is the negative zero only if its first term is. -/
theorem eq_zero_of_add {x y : UnpackedFloat} (xFits : Fits x) (yFits : Fits y)
    (sum : UnpackedFloat.pack .binary32 (x.add .binary32 y) = packedZero .binary32 .negative) :
    x = .zero .negative := by
  have nan : UnpackedFloat.pack .binary32 .notANumber ≠ packedZero .binary32 .negative := by decide
  have infinite : ∀ s,
      UnpackedFloat.pack .binary32 (.infinity s) ≠ packedZero .binary32 .negative := by
    intro s
    cases s <;> decide
  cases x with
  | notANumber => exact absurd sum nan
  | infinity s =>
      cases y with
      | notANumber => exact absurd sum nan
      | infinity t =>
          simp only [UnpackedFloat.add] at sum
          split at sum
          · exact absurd sum (infinite s)
          · exact absurd sum nan
      | zero t => exact absurd sum (infinite s)
      | finite t n f q => exact absurd sum (infinite s)
  | zero s =>
      cases s with
      | negative => rfl
      | positive =>
          cases y with
          | notANumber => exact absurd sum nan
          | infinity t => exact absurd sum (infinite t)
          | zero t => cases t <;> exact absurd sum (by decide)
          | finite t n f q => exact absurd sum (pack_ne_zero .negative yFits)
  | finite s m e p =>
      cases y with
      | notANumber => exact absurd sum nan
      | infinity t => exact absurd sum (infinite t)
      | zero t => exact absurd sum (pack_ne_zero .negative xFits)
      | finite t n f q =>
          have least : -149 ≤ min e f := by
            have := xFits.2
            have := yFits.2
            omega
          exact absurd sum (pack_normalize_ne_zero _ _ least)

theorem add_unpacked {x : UnpackedFloat} (other : x ≠ .zero .negative) :
    UnpackedFloat.add .binary32 (.zero .positive) x = x := by
  cases x with
  | zero s =>
      cases s with
      | negative => exact absurd rfl other
      | positive => rfl
  | notANumber => rfl
  | infinity s => rfl
  | finite s m e p => rfl

theorem eq_of_unpack {x : Float32} (zero : x.toModel.unpack = .zero .negative) : x = -0.0 := by
  have written := (unpack_eq_zero_iff_of_valid x.toModel.valid).mp zero
  exact Float32.toBits_inj.mp (UInt32.toBitVec_inj.mp written)

/-- Silence under a sample makes no difference, unless the sample is the negative zero. -/
theorem zero_add {x : Float32} (other : x ≠ -0.0) : 0.0 + x = x := by
  have zero : (0.0 : Float32).toModel.unpack = .zero .positive := rfl
  have sum := add_unpacked fun unpacked => other (eq_of_unpack unpacked)
  have added : 0.0 + x = .ofModel (.pack (UnpackedFloat.add .binary32
    (0.0 : Float32).toModel.unpack x.toModel.unpack)) := rfl
  rw [added, zero, sum]
  exact x.ofBits_toBits

theorem add_ne {x : Float32} (y : Float32) (other : x ≠ -0.0) : x + y ≠ -0.0 := by
  intro sum
  apply other
  apply eq_of_unpack
  apply eq_zero_of_add (fits_unpack _) (fits_unpack y.toModel.toBits.toBitVec)
  exact congrArg (fun z : Float32 => z.toModel.toBits.toBitVec) sum

/-- A sum that begins with silence may have silence under it. -/
theorem zero_add_sum (xs : List Float32) : 0.0 + xs.foldl (· + ·) 0.0 = xs.foldl (· + ·) 0.0 := by
  have begun : ∀ sum : Float32, sum ≠ -0.0 → xs.foldl (· + ·) sum ≠ -0.0 := by
    induction xs with
    | nil => exact fun _ other => other
    | cons x xs ih => exact fun sum other => ih (sum + x) (add_ne x other)
  exact zero_add (begun 0.0 (by decide))

end Sums

end Songline.SignedZero
