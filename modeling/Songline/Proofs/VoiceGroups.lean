import Songline.Score.Part

set_option autoImplicit false

namespace Songline

namespace Offset

theorem le_max_left (a b : Offset) : a.micros ≤ (max a b).micros := by
  unfold max
  split
  · assumption
  · exact UInt64.le_refl _

theorem le_max_right (a b : Offset) : b.micros ≤ (max a b).micros := by
  unfold max
  split
  · exact UInt64.le_refl _
  · rename_i after
    exact (UInt64.le_total a.micros b.micros).resolve_left after

theorem max_eq (a b : Offset) : max a b = a ∨ max a b = b := by
  unfold max
  split
  · exact Or.inr rfl
  · exact Or.inl rfl

/-- The last of some places is one of them, and none is after it. -/
theorem foldl_max_greatest (offsets : List Offset) (first : Offset) :
    offsets.foldl max first ∈ first :: offsets ∧
      ∀ o ∈ first :: offsets, o.micros ≤ (offsets.foldl max first).micros := by
  induction offsets generalizing first with
  | nil =>
      refine ⟨List.mem_cons_self, fun o member => ?_⟩
      rw [List.mem_singleton.mp member]
      exact UInt64.le_refl _
  | cons second rest ih =>
      obtain ⟨reached, greatest⟩ := ih (max first second)
      have beyond := greatest (max first second) List.mem_cons_self
      refine ⟨?_, fun o member => ?_⟩
      · rw [List.foldl_cons]
        rcases List.mem_cons.mp reached with same | later
        · rw [same]
          rcases max_eq first second with here | here <;> simp [here]
        · exact List.mem_cons_of_mem _ (List.mem_cons_of_mem _ later)
      · rw [List.foldl_cons]
        rcases List.mem_cons.mp member with rfl | member
        · exact UInt64.le_trans (le_max_left o second) beyond
        · rcases List.mem_cons.mp member with rfl | member
          · exact UInt64.le_trans (le_max_right first o) beyond
          · exact greatest o (List.mem_cons_of_mem _ member)

end Offset

namespace VoiceGroup

/-- No voice is parked twice, and the active one not at all. -/
structure Orderly (g : VoiceGroup) : Prop where
  once : (g.parked.map (·.1)).Nodup
  active : g.active ∉ g.parked.map (·.1)

/-- Where a voice is, if the part is at a cursor. -/
def cursorOf (g : VoiceGroup) (c : Cursor) (v : UInt32) : Cursor :=
  if v = g.active then c else (g.parked.lookup v).getD g.opening

def voices (g : VoiceGroup) : List UInt32 := g.active :: g.parked.map (·.1)

theorem lookup_without (parked : List (UInt32 × Cursor)) (dropped n : UInt32) :
    (parked.filter (·.1 ≠ dropped)).lookup n =
      if n = dropped then none else parked.lookup n := by
  induction parked with
  | nil => simp
  | cons entry parked ih =>
      obtain ⟨key, c⟩ := entry
      by_cases drop : key = dropped
      · subst drop
        by_cases same : n = key
        · simp [same] at ih ⊢
          exact ih
        · have differ : (n == key) = false := beq_eq_false_iff_ne.mpr same
          simp [same, List.lookup_cons, differ] at ih ⊢
          exact ih
      · by_cases same : n = key
        · subst same
          simp [drop]
        · have differ : (n == key) = false := beq_eq_false_iff_ne.mpr same
          simp only [ne_eq, decide_not] at ih
          simp [drop, List.lookup_cons, differ, ih]

theorem lookup_park (g : VoiceGroup) (c : Cursor) (v : UInt32) :
    (g.park c).lookup v = if v = g.active then some c else g.parked.lookup v := by
  unfold park
  by_cases same : v = g.active
  · simp [same]
  · have differ : (v == g.active) = false := beq_eq_false_iff_ne.mpr same
    rw [List.lookup_cons, differ, lookup_without]
    simp [same]

theorem once_park (g : VoiceGroup) (c : Cursor) (orderly : g.Orderly) :
    ((g.park c).map (·.1)).Nodup := by
  unfold park
  rw [List.map_cons, List.nodup_cons]
  refine ⟨?_, ?_⟩
  · simp
  · exact List.Nodup.sublist (List.filter_sublist.map _) orderly.once

theorem orderly_switch (g : VoiceGroup) (c : Cursor) (n : UInt32) (orderly : g.Orderly) :
    (g.switch c n).2.Orderly := by
  refine ⟨?_, ?_⟩
  · exact List.Nodup.sublist (List.filter_sublist.map _) (g.once_park c orderly)
  · simp [switch]

/-- A switch leaves every voice where it is. -/
theorem cursorOf_switch (g : VoiceGroup) (c : Cursor) (n v : UInt32) (other : n ≠ g.active) :
    (g.switch c n).2.cursorOf (g.switch c n).1 v = g.cursorOf c v := by
  simp only [switch, cursorOf, lookup_without, lookup_park]
  by_cases taken : v = n
  · subst taken
    simp [other]
  · by_cases left : v = g.active
    · simp [left, Ne.symm other]
    · simp [taken, left]

theorem mem_park (g : VoiceGroup) (c : Cursor) (entry : UInt32 × Cursor)
    (parked : entry ∈ g.park c) : entry = (g.active, c) ∨ entry ∈ g.parked := by
  rcases List.mem_cons.mp parked with here | earlier
  · exact Or.inl here
  · exact Or.inr (List.mem_filter.mp earlier).1

/-- A voice is taken up where it was parked, or at the opening. -/
theorem switch_cursor (g : VoiceGroup) (c : Cursor) (n : UInt32) :
    (∃ entry ∈ g.park c, (g.switch c n).1 = entry.2) ∨ (g.switch c n).1 = g.opening := by
  simp only [switch]
  cases found : (g.park c).lookup n with
  | none => exact Or.inr rfl
  | some own =>
      obtain ⟨before, after, split, -⟩ := List.lookup_eq_some_iff.mp found
      refine Or.inl ⟨(n, own), ?_, rfl⟩
      rw [split]
      exact List.mem_append_right _ List.mem_cons_self

theorem mem_keys_without (parked : List (UInt32 × Cursor)) (dropped v : UInt32) :
    v ∈ (parked.filter (·.1 ≠ dropped)).map (·.1) ↔ v ≠ dropped ∧ v ∈ parked.map (·.1) := by
  simp only [List.mem_map, List.mem_filter, decide_eq_true_eq]
  constructor
  · rintro ⟨entry, ⟨member, differ⟩, rfl⟩
    exact ⟨differ, entry, member, rfl⟩
  · rintro ⟨differ, entry, member, rfl⟩
    exact ⟨entry, ⟨member, differ⟩, rfl⟩

theorem mem_voices_switch (g : VoiceGroup) (c : Cursor) (n v : UInt32) :
    v ∈ (g.switch c n).2.voices ↔ v = n ∨ v ∈ g.voices := by
  simp only [switch, voices, park, List.mem_cons, mem_keys_without, List.map_cons]
  by_cases taken : v = n
  · simp [taken]
  · by_cases left : v = g.active
    · simp [left, Decidable.em]
    · simp [taken, left]

/-- A parked cursor is that of its voice. -/
theorem cursorOf_of_parked {g : VoiceGroup} {v : UInt32} {own : Cursor} (c : Cursor)
    (orderly : g.Orderly) (member : (v, own) ∈ g.parked) : g.cursorOf c v = own := by
  have key : v ∈ g.parked.map (·.1) := List.mem_map.mpr ⟨(v, own), member, rfl⟩
  have left : v ≠ g.active := fun same => orderly.active (same ▸ key)
  have found : g.parked.lookup v = some own := by
    obtain ⟨before, after, split⟩ := List.append_of_mem member
    have once := orderly.once
    rw [split, List.map_append, List.nodup_append] at once
    rw [split, List.lookup_eq_some_iff]
    refine ⟨before, after, rfl, fun entry earlier => bne_iff_ne.mpr fun same => ?_⟩
    have here : entry.1 ∈ before.map (·.1) := List.mem_map.mpr ⟨entry, earlier, rfl⟩
    exact once.2.2 entry.1 here v List.mem_cons_self same.symm
  simp [cursorOf, left, found]

end VoiceGroup

end Songline
