import Mathlib.Data.List.Basic
import Songline.Score.Score

set_option autoImplicit false

namespace Songline.Score

theorem nodup_eventList (s : Score) : s.eventList.Nodup := by
  apply List.Pairwise.imp _ Std.ExtTreeSet.distinct_toList
  intro a b distinct same
  exact distinct (Std.LawfulEqOrd.compare_eq_iff_eq.mpr same)

theorem mem_eventList {s : Score} {e : Event} : e ∈ s.eventList ↔ e ∈ s.events :=
  Std.ExtTreeSet.mem_toList

theorem mem_added {older newer : Score} {e : Event} :
    e ∈ older.added newer ↔ e ∈ newer.events ∧ e ∉ older.events := by
  simp only [added, List.mem_filter, mem_eventList, Bool.not_eq_true',
    ← Std.ExtTreeSet.contains_iff_mem, Bool.not_eq_true]

/-- Nothing is counted twice: what a growing score has is what it had and what was added. -/
theorem length_added {older newer : Score} (grows : ∀ e ∈ older.events, e ∈ newer.events) :
    older.events.size + (older.added newer).length = newer.events.size := by
  have old : (newer.eventList.filter fun e => older.events.contains e).Perm older.eventList := by
    apply (List.perm_ext_iff_of_nodup ((nodup_eventList newer).filter _)
      (nodup_eventList older)).mpr
    intro e
    rw [List.mem_filter, mem_eventList, mem_eventList, Std.ExtTreeSet.contains_iff_mem]
    exact ⟨fun member => member.2, fun member => ⟨grows e member, member⟩⟩
  calc older.events.size + (older.added newer).length
      = older.eventList.length + (older.added newer).length := by
        rw [eventList, Std.ExtTreeSet.length_toList]
    _ = newer.eventList.length := by
        rw [← old.length_eq, added]
        exact (List.length_eq_length_filter_add _).symm
    _ = newer.events.size := Std.ExtTreeSet.length_toList

end Songline.Score
