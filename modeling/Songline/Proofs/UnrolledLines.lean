import Songline.Proofs.FormErrors
import Songline.Proofs.Unrolling

set_option autoImplicit false

namespace Songline

namespace Form

/-- Neither a sequence nor a repeat. -/
def IsLeaf : Form → Prop
  | .sequence _ | .repeated _ _ => False
  | _ => True

mutual

theorem isLeaf_of_mem_unroll {leaf : Form} : ∀ form : Form, leaf ∈ form.unroll → leaf.IsLeaf
  | .sequence forms, member => by
      rw [unroll] at member
      exact isLeaf_of_mem_unrollAll forms member
  | .repeated form times, member => by
      rw [unroll, List.mem_flatten] at member
      obtain ⟨copy, copied, member⟩ := member
      rw [(List.mem_replicate.mp copied).2] at member
      exact isLeaf_of_mem_unroll form member
  | .part _, member | .note _, member | .rest _, member | .chord _, member | .octave _, member
  | .setting _, member | .voice _, member => by
      simp only [unroll, List.mem_singleton] at member
      rw [member]
      trivial

/-- Only leaves are left when forms are written out. -/
theorem isLeaf_of_mem_unrollAll {leaf : Form} : ∀ forms : List Form,
    leaf ∈ unrollAll forms → leaf.IsLeaf
  | [], member => by
      rw [unrollAll] at member
      cases member
  | form :: forms, member => by
      rw [unrollAll, List.mem_append] at member
      rcases member with here | later
      · exact isLeaf_of_mem_unroll form here
      · exact isLeaf_of_mem_unrollAll forms later

end

theorem unroll_of_isLeaf {form : Form} (leaf : form.IsLeaf) : form.unroll = [form] := by
  cases form with
  | sequence | repeated => exact leaf.elim
  | _ => simp only [unroll]

theorem unrollAll_of_leaves {forms : List Form} (leaves : ∀ leaf ∈ forms, leaf.IsLeaf) :
    unrollAll forms = forms := by
  induction forms with
  | nil => rw [unrollAll]
  | cons form forms ih =>
      have rest := ih fun leaf member => leaves leaf (List.mem_cons_of_mem _ member)
      rw [unrollAll, unroll_of_isLeaf (leaves form List.mem_cons_self), rest]
      rfl

/-- Writing out once is enough. -/
theorem unrollAll_unrollAll (forms : List Form) : unrollAll (unrollAll forms) = unrollAll forms :=
  unrollAll_of_leaves fun _ member => isLeaf_of_mem_unrollAll forms member

end Form

namespace Draft

theorem applyLine_unrollAll (d : Draft) (entry : Entry) (forms : List Form) :
    d.applyLine entry (Form.unrollAll forms) = d.applyLine entry forms := by
  cases entry <;> simp only [applyLine, applyAll_unrollAll]

/-- A line is too large just when it has too many leaves. -/
theorem maxExpanded_lt_iff (forms : List Form) :
    maxExpanded < (Form.expandedLengths forms).toNat ↔
      maxExpanded < (Form.unrollAll forms).length := by
  have below : maxExpanded < Saturating.top := by decide
  rw [Form.toNat_expandedLengths]
  omega

/-- A line and its leaves are evaluated alike. A line expands to as many forms as it has leaves, as
far as 64 bits can count, and is too large just when these are more than the limit. -/
theorem evaluate_unrollAll (d : Draft) (entry : Entry) (forms : List Form) :
    d.evaluate entry (Form.unrollAll forms) = d.evaluate entry forms ∧
      (Form.expandedLengths forms).toNat = min (Form.unrollAll forms).length (UInt64.size - 1) ∧
      ∀ limit, d.evaluate entry forms = .error (.tooLarge limit) ↔
        limit = 100000 ∧ 100000 < (Form.unrollAll forms).length := by
  refine ⟨?_, Form.toNat_expandedLengths forms, fun limit => ?_⟩
  · have same := maxExpanded_lt_iff (Form.unrollAll forms)
    rw [Form.unrollAll_unrollAll, ← maxExpanded_lt_iff forms] at same
    simp only [evaluate, gt_iff_lt, same, applyLine_unrollAll]
  · have counted := maxExpanded_lt_iff forms
    unfold evaluate
    split
    · rename_i beyond
      refine ⟨fun refused => ?_, ?_⟩
      · cases refused
        exact ⟨rfl, counted.mp beyond⟩
      · rintro ⟨rfl, -⟩
        rfl
    · rename_i within
      refine ⟨fun failed => (ofForm_applyLine failed).elim, ?_⟩
      rintro ⟨-, beyond⟩
      exact absurd (counted.mpr beyond) within

end Draft

end Songline
