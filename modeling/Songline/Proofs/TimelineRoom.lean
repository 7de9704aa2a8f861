import Songline.Score.Cursor

set_option autoImplicit false

namespace Songline

namespace Offset

theorem toNat_min (a b : Offset) :
    (a.min b).micros.toNat = Min.min a.micros.toNat b.micros.toNat := by
  unfold min
  split
  · rename_i before
    rw [UInt64.le_iff_toNat_le] at before
    exact (Nat.min_eq_left before).symm
  · rename_i after
    rw [UInt64.le_iff_toNat_le] at after
    exact (Nat.min_eq_right (by omega)).symm

theorem toNat_max (a b : Offset) :
    (a.max b).micros.toNat = Max.max a.micros.toNat b.micros.toNat := by
  unfold max
  split
  · rename_i before
    rw [UInt64.le_iff_toNat_le] at before
    exact (Nat.max_eq_right before).symm
  · rename_i after
    rw [UInt64.le_iff_toNat_le] at after
    exact (Nat.max_eq_left (by omega)).symm

theorem ext_toNat {a b : Offset} (same : a.micros.toNat = b.micros.toNat) : a = b :=
  Offset.ext (UInt64.toNat_inj.mp same)

/-- There is room on the timeline to go on from a place by a stretch. -/
def HasRoom (a d : Offset) : Prop := a.micros.toNat + d.micros.toNat ≤ Saturating.top

instance (a d : Offset) : Decidable (a.HasRoom d) :=
  inferInstanceAs (Decidable (_ ≤ _))

theorem toNat_add_of_hasRoom {a d : Offset} (room : a.HasRoom d) :
    (a + d).micros.toNat = a.micros.toNat + d.micros.toNat := by
  rw [toNat_add]
  exact Nat.min_eq_left room

/-- A stretch is added if and only if there is room for it. -/
theorem add?_eq (a d : Offset) : a.add? d = if a.HasRoom d then some (a + d) else none := by
  unfold add? Saturating.add?
  by_cases room : a.HasRoom d
  · have sum : a.micros.toNat + d.micros.toNat ≤ Saturating.top := room
    rw [if_pos room, if_pos sum]
    rfl
  · have sum : ¬a.micros.toNat + d.micros.toNat ≤ Saturating.top := room
    rw [if_neg room, if_neg sum]
    rfl

theorem compare_eq_toNat (a b : Offset) :
    compare a b = compare a.micros.toNat b.micros.toNat := by
  change compareOfLessAndEq a.micros b.micros = compareOfLessAndEq a.micros.toNat b.micros.toNat
  unfold compareOfLessAndEq
  simp only [UInt64.lt_iff_toNat_lt, UInt64.toNat_inj]

/-- Places are ordered as their distances from a place before them. -/
theorem compare_sub {a b first : Offset} (beforeA : first.micros.toNat ≤ a.micros.toNat)
    (beforeB : first.micros.toNat ≤ b.micros.toNat) :
    compare (a - first) (b - first) = compare a b := by
  rw [compare_eq_toNat, compare_eq_toNat, toNat_sub, toNat_sub]
  rcases Nat.lt_trichotomy a.micros.toNat b.micros.toNat with less | equal | more
  · rw [Nat.compare_eq_lt.mpr less, Nat.compare_eq_lt.mpr (by omega)]
  · rw [Nat.compare_eq_eq.mpr equal, Nat.compare_eq_eq.mpr (by omega)]
  · rw [Nat.compare_eq_gt.mpr more, Nat.compare_eq_gt.mpr (by omega)]

/-- It makes no difference which of two stretches comes first. -/
theorem add_right_comm {a b d : Offset} (room : a.HasRoom d) (onward : (a + d).HasRoom b) :
    a + d + b = a + b + d ∧ a.HasRoom b ∧ (a + b).HasRoom d := by
  have ahead := toNat_add_of_hasRoom room
  have far := toNat_add_of_hasRoom onward
  unfold HasRoom at onward
  have near : a.HasRoom b := by
    unfold HasRoom
    omega
  have behind := toNat_add_of_hasRoom near
  have last : (a + b).HasRoom d := by
    unfold HasRoom
    omega
  refine ⟨ext_toNat ?_, near, last⟩
  rw [far, toNat_add_of_hasRoom last]
  omega

/-- The last of some places is the last of them so much later. -/
theorem max_add (a b d : Offset) : (a + d).max (b + d) = a.max b + d := by
  apply ext_toNat
  rw [toNat_max, toNat_add, toNat_add, toNat_add, toNat_max]
  omega

theorem foldl_max_add (offsets : List Offset) (first d : Offset) :
    (offsets.map (· + d)).foldl max (first + d) = offsets.foldl max first + d := by
  induction offsets generalizing first with
  | nil => rfl
  | cons second offsets ih => rw [List.map_cons, List.foldl_cons, List.foldl_cons, max_add, ih]

end Offset

namespace Cursor

/-- A cursor moves on if and only if there is room for it. -/
theorem advance_eq (c : Cursor) (step : Offset) :
    c.advance step =
      if c.offset.HasRoom step then (.ok (), { c with offset := c.offset + step })
      else (.error .timelineOverflow, c) := by
  unfold advance
  rw [Offset.add?_eq]
  by_cases room : c.offset.HasRoom step
  · rw [if_pos room, if_pos room]
  · rw [if_neg room, if_neg room]

end Cursor

end Songline
