import Mathlib.Algebra.BigOperators.Group.Finset.Basic
import Mathlib.Algebra.Order.BigOperators.Group.Finset
import Mathlib.Data.Rat.Floor
import Mathlib.Tactic.FieldSimp
import Mathlib.Tactic.Linarith
import Songline.Proofs.CheckedCursor
import Songline.Proofs.TimelineRoom

set_option autoImplicit false

namespace Songline

namespace Number

/-- The whole number nearest to a quotient, by a division that rounds down. -/
theorem round_div (n : Nat) {d : Nat} (positive : 0 < d) :
    round ((n : Rat) / d) = ((2 * n + d) / (2 * d) : Nat) := by
  have nonzero : (d : Rat) ≠ 0 := by
    exact_mod_cast positive.ne'
  have raised : (n : Rat) / d + 1 / 2 = ((2 * n + d : Nat) : Rat) / ((2 * d : Nat) : Rat) := by
    push_cast
    field_simp
  rw [round_eq, raised, Rat.floor_natCast_div_natCast]
  norm_cast

theorem round_mono {x y : Rat} (le : x ≤ y) : round x ≤ round y := by
  rw [round_eq, round_eq]
  exact Int.floor_le_floor (by linarith)

/-- Two numbers that are rounded before they are added miss their sum by one at most. -/
theorem abs_round_add_le (x y : Rat) : |round (x + y) - (round x + round y)| ≤ 1 := by
  have first := abs_le.mp (abs_sub_round x)
  have second := abs_le.mp (abs_sub_round y)
  have both := abs_le.mp (abs_sub_round (x + y))
  have near : |((round (x + y) - (round x + round y) : Int) : Rat)| < 2 := by
    rw [abs_lt]
    push_cast
    constructor <;> linarith
  have whole : |round (x + y) - (round x + round y)| < 2 := by
    exact_mod_cast near
  omega

end Number

/-- The number of the nearest sample, by a product of 128 bits and a quotient that has to fit into
64. -/
def Checked.sampleIndex (a : Offset) (rate : UInt32) : Checked UInt64 := do
  let product ← unsigned 128 (a.micros.toNat * rate.toNat)
  let raised ← unsigned 128 (product + 500000)
  return UInt64.ofNat (← unsigned 64 (raised / 1000000))

namespace Offset

/-- The exact place of an offset, in samples. -/
def samples (a : Offset) (rate : UInt32) : Rat := (a.micros.toNat * rate.toNat : Nat) / 1000000

theorem samples_add {a b : Offset} (rate : UInt32) (room : a.HasRoom b) :
    (a + b).samples rate = a.samples rate + b.samples rate := by
  rw [samples, samples, samples, toNat_add_of_hasRoom room, Nat.add_mul, Nat.cast_add, add_div]

theorem samples_mono {a b : Offset} (rate : UInt32) (before : a.micros ≤ b.micros) :
    a.samples rate ≤ b.samples rate := by
  have product : a.micros.toNat * rate.toNat ≤ b.micros.toNat * rate.toNat :=
    Nat.mul_le_mul_right _ (UInt64.le_iff_toNat_le.mp before)
  rw [samples, samples]
  exact div_le_div_of_nonneg_right (Nat.cast_le.mpr product) (by norm_num)

/-- Stretches that fit on the timeline together lead to the sum of their places. -/
theorem samples_foldl_add (rate : UInt32) {steps : List Offset} {a : Offset}
    (room : a.micros.toNat + (steps.map (·.micros.toNat)).sum ≤ Saturating.top) :
    (steps.foldl (· + ·) a).samples rate =
      a.samples rate + (steps.map (·.samples rate)).sum := by
  induction steps generalizing a with
  | nil => rw [List.foldl_nil, List.map_nil, List.sum_nil, add_zero]
  | cons step steps ih =>
      rw [List.map_cons, List.sum_cons] at room
      have here : a.HasRoom step := by
        unfold HasRoom
        omega
      have onward := toNat_add_of_hasRoom here
      rw [List.foldl_cons, ih (by omega), samples_add rate here, List.map_cons, List.sum_cons,
        add_assoc]

section Rate

variable {rate : UInt32} (slow : rate.toNat ≤ 1000000)

include slow

theorem micros_mul_rate_le (a : Offset) :
    a.micros.toNat * rate.toNat ≤ (2 ^ 64 - 1) * 1000000 := by
  have micros := a.micros.toNat_lt
  exact Nat.mul_le_mul (by omega) slow

/-- The place of the last offset is rounded to the last number. -/
theorem sampleIndex_fits (a : Offset) :
    (a.micros.toNat * rate.toNat + 500000) / 1000000 < 2 ^ 64 := by
  have product := micros_mul_rate_le slow a
  omega

theorem checked_sampleIndex (a : Offset) :
    Checked.sampleIndex a rate = some (a.sampleIndex rate) := by
  have product := micros_mul_rate_le slow a
  unfold Checked.sampleIndex
  simp only [Option.bind_eq_bind, Option.pure_def]
  rw [Checked.unsigned_eq (by omega), Option.bind_some, Checked.unsigned_eq (by omega),
    Option.bind_some, Checked.unsigned_eq (sampleIndex_fits slow a), Option.bind_some,
    Offset.sampleIndex]

theorem toNat_sampleIndex (a : Offset) :
    ((a.sampleIndex rate).toNat : Int) = round (a.samples rate) := by
  have nearest := Number.round_div (a.micros.toNat * rate.toNat) (by decide : 0 < 1000000)
  have halved : (2 * (a.micros.toNat * rate.toNat) + 1000000) / (2 * 1000000) =
      (a.micros.toNat * rate.toNat + 500000) / 1000000 := by
    omega
  rw [sampleIndex, UInt64.toNat_ofNat', Nat.mod_eq_of_lt (sampleIndex_fits slow a), samples]
  rw [halved] at nearest
  exact_mod_cast nearest.symm

/-- At no more than a million samples a second, every offset is placed at the sample nearest to it,
a half going up, and the number of that sample is not cut off. Later offsets are not placed earlier.
The numbers of two stretches miss that of both together by one at most; and however many stretches
lead to an offset, it is placed within half a sample. -/
theorem sampleIndex_nearest :
    (∀ a : Offset, ((a.sampleIndex rate).toNat : Int) = round (a.samples rate) ∧
      Checked.sampleIndex a rate = some (a.sampleIndex rate)) ∧
    (∀ a b : Offset, a.micros ≤ b.micros → a.sampleIndex rate ≤ b.sampleIndex rate) ∧
    (∀ a b : Offset, a.HasRoom b →
      |((a + b).sampleIndex rate).toNat -
        ((a.sampleIndex rate).toNat + (b.sampleIndex rate).toNat : Int)| ≤ 1) ∧
    ∀ steps : List Offset, (steps.map (·.micros.toNat)).sum ≤ Saturating.top →
      |(steps.map (·.samples rate)).sum -
        (((steps.foldl (· + ·) zero).sampleIndex rate).toNat : Rat)| ≤ 1 / 2 := by
  refine ⟨fun a => ⟨toNat_sampleIndex slow a, checked_sampleIndex slow a⟩, ?_, ?_, ?_⟩
  · intro a b before
    have le := Number.round_mono (samples_mono rate before)
    rw [← toNat_sampleIndex slow, ← toNat_sampleIndex slow] at le
    exact UInt64.le_iff_toNat_le.mpr (by omega)
  · intro a b room
    rw [toNat_sampleIndex slow, toNat_sampleIndex slow, toNat_sampleIndex slow,
      samples_add rate room]
    exact Number.abs_round_add_le _ _
  · intro steps room
    have total : (steps.foldl (· + ·) zero).samples rate = (steps.map (·.samples rate)).sum := by
      have start : zero.samples rate = 0 := by
        simp [samples, zero]
      rw [samples_foldl_add rate (by simpa [zero] using room), start, zero_add]
    have placed := abs_sub_round ((steps.foldl (· + ·) zero).samples rate)
    rw [← toNat_sampleIndex slow, total] at placed
    exact_mod_cast placed

end Rate

example : ((⟨18446744073709551615⟩ : Offset).sampleIndex 1000000).toNat = 18446744073709551615 := by
  decide

/-- Stretches of 17 microseconds. One is rounded up, and two together are rounded down. -/
theorem sampleIndex_nearest_stretches :
    let a : Offset := ⟨17⟩
    (44100 : UInt32).toNat ≤ 1000000 ∧ a.micros ≤ (a + a).micros ∧ a.HasRoom a ∧
      ([a, a, a].map (·.micros.toNat)).sum ≤ Saturating.top ∧
      round (a.samples 44100) = 1 ∧ round ((a + a).samples 44100) = 1 ∧
      a.sampleIndex 44100 ≤ (a + a).sampleIndex 44100 ∧
      |((a + a).sampleIndex 44100).toNat -
        ((a.sampleIndex 44100).toNat + (a.sampleIndex 44100).toNat : Int)| ≤ 1 ∧
      |([a, a, a].map (·.samples 44100)).sum -
        ((([a, a, a].foldl (· + ·) zero).sampleIndex 44100).toNat : Rat)| ≤ 1 / 2 := by
  intro a
  have slow : (44100 : UInt32).toNat ≤ 1000000 := by decide
  have later : a.micros ≤ (a + a).micros := by decide
  have room : a.HasRoom a := by decide
  have sum : ([a, a, a].map (·.micros.toNat)).sum ≤ Saturating.top := by decide
  obtain ⟨nearest, monotone, near, within⟩ := sampleIndex_nearest slow
  have one : (a.sampleIndex 44100).toNat = 1 := by decide
  have both : ((a + a).sampleIndex 44100).toNat = 1 := by decide
  have alone := (nearest a).1
  have together := (nearest (a + a)).1
  rw [one] at alone
  rw [both] at together
  exact ⟨slow, later, room, sum, alone.symm, together.symm, monotone a (a + a) later, near a a room,
    within [a, a, a] sum⟩

end Offset

namespace Beat

theorem dotted_zero (dots : Nat) : dotted 0 dots = 0 := by
  cases dots <;> rfl

/-- Half of the addition before is a dot's addition, also once nothing is left to add. -/
theorem dotted_succ (addition dots : Nat) :
    dotted addition (dots + 1) = addition / 2 + dotted (addition / 2) dots := by
  rw [dotted]
  split
  · rename_i nothing
    rw [nothing, dotted_zero]
  · rfl

/-- A length and what its dots add are the length and its halves. -/
theorem add_dotted (base dots : Nat) :
    base + dotted base dots = ∑ i ∈ Finset.range (dots + 1), base / 2 ^ i := by
  induction dots generalizing base with
  | zero => simp [dotted]
  | succ dots ih =>
      have halves : ∀ i, base / 2 ^ (i + 1) = base / 2 / 2 ^ i := by
        intro i
        rw [Nat.div_div_eq_div_mul, pow_succ']
      calc base + dotted base (dots + 1)
          = base + ∑ i ∈ Finset.range (dots + 1), base / 2 / 2 ^ i := by rw [dotted_succ, ih]
        _ = ∑ i ∈ Finset.range (dots + 1), base / 2 ^ (i + 1) + base / 2 ^ 0 := by
          simp only [halves, pow_zero, Nat.div_one, Nat.add_comm base]
        _ = ∑ i ∈ Finset.range (dots + 2), base / 2 ^ i :=
          (Finset.sum_range_succ' (fun i => base / 2 ^ i) (dots + 1)).symm

/-- Dots never add all of a length. -/
theorem dotted_lt {base : Nat} (dots : Nat) (positive : 0 < base) : dotted base dots < base := by
  induction dots generalizing base with
  | zero => exact positive
  | succ dots ih =>
      rw [dotted_succ]
      by_cases nothing : base / 2 = 0
      · rw [nothing, dotted_zero]
        omega
      · have less := ih (Nat.pos_of_ne_zero nothing)
        omega

/-- A note value that would last less than half a tick lasts none. -/
theorem baseTicks_eq_zero_iff (n : UInt32) : baseTicks n = 0 ↔ n = 0 ∨ 7680 < n := by
  have zero : (0 : UInt32).toNat = 0 := rfl
  have last : (7680 : UInt32).toNat = 7680 := rfl
  rw [baseTicks, Nat.div_eq_zero_iff, UInt32.lt_iff_toNat_lt, ← UInt32.toNat_inj, zero, last]
  simp only [ticksPerWhole, ticksPerBeat]
  omega

theorem toNat_pos {n : UInt32} (nonzero : n ≠ 0) : 0 < n.toNat :=
  Nat.pos_of_ne_zero fun zero => nonzero (UInt32.toNat_inj.mp zero)

theorem baseTicks_eq_round {n : UInt32} (nonzero : n ≠ 0) :
    (baseTicks n : Int) = round (3840 / (n.toNat : Rat)) :=
  (Number.round_div 3840 (toNat_pos nonzero)).symm

/-- The larger of two note values is the shorter. -/
theorem baseTicks_anti {n m : UInt32} (nonzero : n ≠ 0) (other : m ≠ 0) (le : n ≤ m) :
    baseTicks m ≤ baseTicks n := by
  have positive : (0 : Rat) < n.toNat := by
    exact_mod_cast toNat_pos nonzero
  have order : (n.toNat : Rat) ≤ m.toNat := by
    exact_mod_cast UInt32.le_iff_toNat_le.mp le
  have shorter : (3840 : Rat) / m.toNat ≤ 3840 / n.toNat :=
    div_le_div_of_nonneg_left (by norm_num) positive order
  have rounded := Number.round_mono shorter
  rw [← baseTicks_eq_round nonzero, ← baseTicks_eq_round other] at rounded
  exact_mod_cast rounded

theorem ofNoteValue?_eq_none_iff (v : NoteValue) :
    ofNoteValue? v = none ↔ baseTicks v.denominator = 0 := by
  unfold ofNoteValue?
  by_cases zero : v.denominator = 0
  · simp [zero, baseTicks]
  · simp [zero]

/-- The ticks of a note value that lasts some. -/
theorem toNat_of_ofNoteValue? {v : NoteValue} {b : Beat} (found : ofNoteValue? v = some b) :
    v.denominator ≠ 0 ∧ 0 < baseTicks v.denominator ∧
      b.ticks.toNat = baseTicks v.denominator + dotted (baseTicks v.denominator) v.dots := by
  unfold ofNoteValue? at found
  split at found
  · cases found
  · rename_i nonzero
    simp only at found
    split at found
    · cases found
    · rename_i lasts
      cases found
      have positive := Nat.pos_of_ne_zero lasts
      have low := Checked.baseTicks_le nonzero
      have less := dotted_lt v.dots positive
      refine ⟨nonzero, positive, ?_⟩
      rw [UInt64.toNat_ofNat', Nat.mod_eq_of_lt (by omega)]

/-- A note value lasts some ticks if and only if it is one from 1 to 7680. They are those of a whole
note by the value, to the nearest, and of its halves for the dots, each rounded down. However many
dots there are, they are less than twice as many as without, and every addition fits. More dots
never make a note shorter, and larger values never make it longer. -/
theorem ofNoteValue_ticks :
    (∀ v, ofNoteValue? v = none ↔ v.denominator = 0 ∨ 7680 < v.denominator) ∧
      (∀ v, Checked.ofNoteValue v = some (ofNoteValue? v)) ∧
      (∀ v b, ofNoteValue? v = some b →
        ∃ base : Nat, (base : Int) = round (3840 / (v.denominator.toNat : Rat)) ∧
          b.ticks.toNat = ∑ i ∈ Finset.range (v.dots + 1), base / 2 ^ i ∧
          1 ≤ b.ticks.toNat ∧ b.ticks.toNat < 2 * base) ∧
      (∀ n dots more b b', dots ≤ more → ofNoteValue? ⟨n, dots⟩ = some b →
        ofNoteValue? ⟨n, more⟩ = some b' → b.ticks ≤ b'.ticks) ∧
      ∀ n m dots b b', n ≤ m → ofNoteValue? ⟨n, dots⟩ = some b →
        ofNoteValue? ⟨m, dots⟩ = some b' → b'.ticks ≤ b.ticks := by
  refine ⟨?_, Checked.ofNoteValue_eq, ?_, ?_, ?_⟩
  · intro v
    rw [ofNoteValue?_eq_none_iff, baseTicks_eq_zero_iff]
  · intro v b found
    obtain ⟨nonzero, positive, ticks⟩ := toNat_of_ofNoteValue? found
    have less := dotted_lt v.dots positive
    exact ⟨baseTicks v.denominator, baseTicks_eq_round nonzero, ticks.trans (add_dotted _ _),
      by omega, by omega⟩
  · intro n dots more b b' le first second
    obtain ⟨-, -, ticks⟩ := toNat_of_ofNoteValue? first
    obtain ⟨-, -, ticks'⟩ := toNat_of_ofNoteValue? second
    rw [UInt64.le_iff_toNat_le, ticks, ticks', add_dotted, add_dotted]
    exact Finset.sum_le_sum_of_subset (Finset.range_mono (Nat.succ_le_succ le))
  · intro n m dots b b' le first second
    obtain ⟨nonzero, -, ticks⟩ := toNat_of_ofNoteValue? first
    obtain ⟨other, -, ticks'⟩ := toNat_of_ofNoteValue? second
    have shorter := baseTicks_anti nonzero other le
    rw [UInt64.le_iff_toNat_le, ticks, ticks', add_dotted, add_dotted]
    exact Finset.sum_le_sum fun i _ => Nat.div_le_div_right shorter

/-- A seventh of a whole note with three dots, beside an eighth with three and one with many. -/
theorem ofNoteValue_ticks_seventh :
    ofNoteValue? ⟨7, 3⟩ = some ⟨1028⟩ ∧ ofNoteValue? ⟨8, 3⟩ = some ⟨900⟩ ∧
      ofNoteValue? ⟨8, 90⟩ = some ⟨956⟩ ∧ (7 : UInt32) ≤ 8 ∧ 3 ≤ 90 ∧
      (∃ base : Nat, (base : Int) = round (3840 / ((7 : UInt32).toNat : Rat)) ∧
        1028 = ∑ i ∈ Finset.range 4, base / 2 ^ i) ∧
      (900 : UInt64) ≤ 1028 ∧ (900 : UInt64) ≤ 956 := by
  obtain ⟨-, -, ticks, longer, shorter⟩ := ofNoteValue_ticks
  have seventh : ofNoteValue? ⟨7, 3⟩ = some ⟨1028⟩ := by decide
  have eighth : ofNoteValue? ⟨8, 3⟩ = some ⟨900⟩ := by decide
  have long : ofNoteValue? ⟨8, 90⟩ = some ⟨956⟩ := by decide
  obtain ⟨base, nearest, sum, -, -⟩ := ticks ⟨7, 3⟩ ⟨1028⟩ seventh
  exact ⟨seventh, eighth, long, by decide, by decide, ⟨base, nearest, sum⟩,
    shorter 7 8 3 ⟨1028⟩ ⟨900⟩ (by decide) seventh eighth,
    longer 8 3 90 ⟨900⟩ ⟨956⟩ (by decide) eighth long⟩

end Beat

end Songline
