import Mathlib.Data.List.FinRange
import Songline.Playback
import Songline.Proofs.TimelineRoom

set_option autoImplicit false

namespace Songline

namespace Event

variable {events others : List Event} {first : Offset}

/-- The first of some events starts at a place. -/
structure StartAt (events : List Event) (first : Offset) : Prop where
  reached : ∃ e ∈ events, e.offset = first
  least : ∀ e ∈ events, first.micros.toNat ≤ e.offset.micros.toNat

theorem StartAt.unique {other : Offset} (starts : StartAt events first)
    (also : StartAt events other) : first = other := by
  obtain ⟨e, member, rfl⟩ := starts.reached
  obtain ⟨e', member', rfl⟩ := also.reached
  exact Offset.ext_toNat (Nat.le_antisymm (starts.least e' member') (also.least e member))

/-- Looking for the first among further events. -/
theorem startAt_foldl (events : List Event) (e : Event) :
    StartAt (e :: events) (events.foldl (fun first e => first.min e.offset) e.offset) := by
  induction events generalizing e with
  | nil =>
      refine ⟨⟨e, List.mem_cons_self, rfl⟩, fun other member => ?_⟩
      rw [List.mem_singleton.mp member]
      exact Nat.le_refl _
  | cons next events ih =>
      -- the earlier of the first two stands for both
      obtain ⟨reached, least⟩ := ih (e.movedTo (e.offset.min next.offset))
      have earlier := least _ List.mem_cons_self
      have minimum := Offset.toNat_min e.offset next.offset
      simp only [movedTo] at reached least earlier
      rw [List.foldl_cons]
      refine ⟨?_, fun other member => ?_⟩
      · obtain ⟨found, member, same⟩ := reached
        rcases List.mem_cons.mp member with rfl | later
        · rcases Nat.le_total e.offset.micros.toNat next.offset.micros.toNat with before | after
          · refine ⟨e, List.mem_cons_self, ?_⟩
            rw [← same]
            exact Offset.ext_toNat (by simp only; omega)
          · refine ⟨next, List.mem_cons_of_mem _ List.mem_cons_self, ?_⟩
            rw [← same]
            exact Offset.ext_toNat (by simp only; omega)
        · exact ⟨found, List.mem_cons_of_mem _ (List.mem_cons_of_mem _ later), same⟩
      · rcases List.mem_cons.mp member with rfl | member
        · omega
        · rcases List.mem_cons.mp member with rfl | later
          · omega
          · exact least other (List.mem_cons_of_mem _ later)

theorem earliest?_eq_some_iff : earliest? events = some first ↔ StartAt events first := by
  cases events with
  | nil =>
      refine ⟨fun none => ?_, fun starts => ?_⟩
      · cases none
      · obtain ⟨e, member, -⟩ := starts.reached
        exact absurd member List.not_mem_nil
  | cons e events =>
      have starts := startAt_foldl events e
      refine ⟨fun found => ?_, fun also => ?_⟩
      · cases found
        exact starts
      · exact congrArg some (starts.unique also)

/-- Some events have a first one. -/
theorem exists_startAt (some : events ≠ []) : ∃ first, StartAt events first := by
  cases events with
  | nil => exact absurd rfl some
  | cons e events => exact ⟨_, startAt_foldl events e⟩

theorem StartAt.perm (starts : StartAt events first) (perm : others.Perm events) :
    StartAt others first := by
  obtain ⟨e, member, same⟩ := starts.reached
  exact ⟨⟨e, perm.mem_iff.mpr member, same⟩,
    fun other inside => starts.least other (perm.mem_iff.mp inside)⟩

@[simp] theorem normalize_nil : normalize [] = [] := rfl

/-- All events are moved by where the first of them starts. -/
theorem StartAt.normalize (starts : StartAt events first) :
    normalize events = events.map fun e => e.movedTo (e.offset - first) := by
  rw [Event.normalize, earliest?_eq_some_iff.mpr starts]

@[simp] theorem length_normalize (events : List Event) :
    (normalize events).length = events.length := by
  cases events with
  | nil => rfl
  | cons e events => rw [(startAt_foldl events e).normalize, List.length_map]

theorem StartAt.getElem?_normalize (starts : StartAt events first) (i : Nat) :
    (Event.normalize events)[i]? = events[i]?.map fun e => e.movedTo (e.offset - first) := by
  rw [starts.normalize, List.getElem?_map]

/-- The first of the events that have been moved starts the timeline. -/
theorem StartAt.startAt_zero (starts : StartAt events first) :
    StartAt (Event.normalize events) .zero := by
  obtain ⟨e, member, same⟩ := starts.reached
  rw [starts.normalize]
  refine ⟨⟨_, List.mem_map_of_mem member, ?_⟩, fun _ _ => Nat.zero_le _⟩
  have difference := Offset.toNat_sub e.offset first
  rw [same] at difference
  simp only [movedTo, same]
  exact Offset.ext_toNat (difference.trans (Nat.sub_self _))

/-- Events that start the timeline stay where they are. -/
theorem StartAt.normalize_of_zero (starts : StartAt events .zero) :
    Event.normalize events = events := by
  rw [starts.normalize]
  refine (List.map_congr_left fun e _ => ?_).trans (List.map_id events)
  have stays : e.offset - .zero = e.offset :=
    Offset.ext_toNat ((Offset.toNat_sub e.offset .zero).trans (Nat.sub_zero _))
  rw [stays]
  rfl

theorem normalize_normalize (events : List Event) :
    normalize (normalize events) = normalize events := by
  cases events with
  | nil => rfl
  | cons e events => exact (startAt_foldl events e).startAt_zero.normalize_of_zero

def later (d : Offset) (e : Event) : Event := e.movedTo (e.offset + d)

/-- Events that are all so much later start so much later. -/
theorem StartAt.later {d : Offset} (starts : StartAt events first)
    (room : ∀ e ∈ events, e.offset.HasRoom d) :
    StartAt (events.map (Event.later d)) (first + d) := by
  obtain ⟨e, member, rfl⟩ := starts.reached
  refine ⟨⟨_, List.mem_map_of_mem member, rfl⟩, fun other inside => ?_⟩
  obtain ⟨e', member', rfl⟩ := List.mem_map.mp inside
  have least := starts.least e' member'
  have moved := Offset.toNat_add_of_hasRoom (room e member)
  have moved' := Offset.toNat_add_of_hasRoom (room e' member')
  simp only [Event.later, movedTo]
  omega

/-- Where the events are on the timeline makes no difference. -/
theorem normalize_later {d : Offset} (room : ∀ e ∈ events, e.offset.HasRoom d) :
    normalize (events.map (later d)) = normalize events := by
  by_cases none : events = []
  · rw [none]
    rfl
  · obtain ⟨first, starts⟩ := exists_startAt none
    rw [(starts.later room).normalize, starts.normalize, List.map_map]
    refine List.map_congr_left fun e member => ?_
    obtain ⟨e', member', rfl⟩ := starts.reached
    have least := starts.least e member
    have moved := Offset.toNat_add_of_hasRoom (room e member)
    have movedFirst := Offset.toNat_add_of_hasRoom (room e' member')
    have difference : e.offset + d - (e'.offset + d) = e.offset - e'.offset := by
      apply Offset.ext_toNat
      rw [Offset.toNat_sub, Offset.toNat_sub]
      omega
    simp only [Function.comp_apply, later, movedTo, difference]

/-- The entries of a list of known length in another order. -/
def reordered {α : Type} {n : Nat} (σ : Equiv.Perm (Fin n)) (l : List α) (length : l.length = n) :
    List α :=
  List.ofFn fun i => l[(σ i).cast length.symm]

theorem reordered_map {α β : Type} {n : Nat} (σ : Equiv.Perm (Fin n)) (f : α → β) (l : List α)
    (length : l.length = n) (lengthMap : (l.map f).length = n) :
    reordered σ (l.map f) lengthMap = (reordered σ l length).map f := by
  unfold reordered
  rw [List.map_ofFn]
  congr 1
  funext i
  simp only [Fin.getElem_fin, List.getElem_map, Fin.val_cast, Function.comp_apply]

theorem reordered_perm {α : Type} (l : List α) (σ : Equiv.Perm (Fin l.length)) :
    (reordered σ l rfl).Perm l := by
  have moved := σ.ofFn_comp_perm fun i => l[i]
  have whole : List.ofFn (fun i : Fin l.length => l[i]) = l := List.ofFn_getElem
  rw [whole] at moved
  exact moved

/-- The order in which the events are listed makes no difference but to the order of the result. -/
theorem normalize_reordered (events : List Event) (σ : Equiv.Perm (Fin events.length)) :
    normalize (reordered σ events rfl) =
      reordered σ (normalize events) (length_normalize events) := by
  by_cases none : events = []
  · subst none
    rfl
  · obtain ⟨first, starts⟩ := exists_startAt none
    have moved := (starts.perm (reordered_perm events σ)).normalize
    simp only [starts.normalize]
    rw [moved, reordered_map σ _ events rfl]

/-- Events in order are in order once they have been moved. -/
theorem pairwise_normalize (increasing : events.Pairwise (compare · · = .lt)) :
    (normalize events).Pairwise (compare · · = .lt) := by
  by_cases none : events = []
  · rw [none]
    exact .nil
  · obtain ⟨first, starts⟩ := exists_startAt none
    rw [starts.normalize, List.pairwise_map]
    refine increasing.imp_of_mem fun {a b} memberA memberB less => ?_
    have offsets := Offset.compare_sub (starts.least a memberA) (starts.least b memberB)
    rw [compare_def] at less ⊢
    simp only [movedTo, offsets]
    exact less

end Event

end Songline
