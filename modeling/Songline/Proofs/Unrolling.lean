import Songline.Score.Draft

set_option autoImplicit false

namespace Songline

namespace Form

mutual

/-- The leaves of a form in the order in which they are applied. -/
def unroll : Form → List Form
  | .sequence forms => unrollAll forms
  | .repeated form times => (List.replicate times.toNat form.unroll).flatten
  | form => [form]

def unrollAll : List Form → List Form
  | [] => []
  | form :: forms => form.unroll ++ unrollAll forms

end

theorem min_mul_min (times n top : Nat) : min (times * min n top) top = min (times * n) top := by
  rcases Nat.le_total n top with within | beyond
  · rw [Nat.min_eq_left within]
  · rw [Nat.min_eq_right beyond]
    rcases Nat.eq_zero_or_pos times with rfl | positive
    · simp only [Nat.zero_mul]
    · have large : top ≤ times * top := Nat.le_mul_of_pos_left top positive
      have larger : times * top ≤ times * n := Nat.mul_le_mul_left times beyond
      omega

mutual

/-- The length that a form expands to is that of its leaves, as far as it can be counted. -/
theorem toNat_expandedLength (form : Form) :
    form.expandedLength.toNat = min form.unroll.length Saturating.top := by
  cases form with
  | sequence forms =>
      rw [expandedLength, unroll]
      exact toNat_expandedLengths forms
  | repeated form times =>
      rw [expandedLength, unroll, Saturating.toNat_mul, toNat_expandedLength form, min_mul_min,
        List.length_flatten, List.map_replicate, List.sum_replicate_nat]
      rfl
  | _ =>
      simp only [expandedLength, unroll, List.length_singleton]
      decide

theorem toNat_expandedLengths (forms : List Form) :
    (expandedLengths forms).toNat = min (unrollAll forms).length Saturating.top := by
  cases forms with
  | nil => rfl
  | cons form forms =>
      rw [expandedLengths, unrollAll, Saturating.toNat_add, toNat_expandedLength form,
        toNat_expandedLengths forms, List.length_append]
      omega

end

/-- What expands to nothing has no leaves. -/
theorem unroll_of_expandedLength_eq_zero {form : Form} (nothing : form.expandedLength = 0) :
    form.unroll = [] := by
  have counted := toNat_expandedLength form
  rw [nothing] at counted
  have positive : 0 < Saturating.top := by decide
  have length : form.unroll.length = 0 := by
    have zero : (0 : UInt64).toNat = 0 := rfl
    omega
  exact List.length_eq_zero_iff.mp length

end Form

namespace Draft

theorem applyAll_append (forms more : List Form) (d : Draft) :
    applyAll (forms ++ more) d = (applyAll forms d).bind (applyAll more) := by
  induction forms generalizing d with
  | nil =>
      rw [List.nil_append, applyAll]
      rfl
  | cons form forms ih =>
      rw [List.cons_append, applyAll, applyAll]
      cases apply form d with
      | error e => rfl
      | ok next => exact ih next

theorem applyAll_singleton (form : Form) (d : Draft) : applyAll [form] d = apply form d := by
  rw [applyAll]
  cases apply form d with
  | error e => rfl
  | ok next =>
      simp only
      rw [applyAll]

theorem applyAll_replicate (forms : List Form) (n : Nat) (d : Draft) :
    applyAll (List.replicate n forms).flatten d = iterate (applyAll forms) n d := by
  induction n generalizing d with
  | zero =>
      rw [List.replicate_zero, List.flatten_nil, applyAll, iterate]
  | succ n ih =>
      rw [List.replicate_succ, List.flatten_cons, applyAll_append, iterate]
      cases applyAll forms d with
      | error e => rfl
      | ok next => exact ih next

theorem iterate_nothing (n : Nat) (d : Draft) : iterate (applyAll []) n d = .ok d := by
  induction n with
  | zero => rw [iterate]
  | succ n ih =>
      rw [iterate, applyAll]
      exact ih

mutual

/-- A form does what its leaves do. -/
theorem applyAll_unroll (form : Form) (d : Draft) : applyAll form.unroll d = apply form d := by
  cases form with
  | sequence forms =>
      rw [Form.unroll, apply]
      exact applyAll_unrollAll forms d
  | repeated form times =>
      rw [Form.unroll, apply, applyAll_replicate]
      have body : applyAll form.unroll = apply form := funext fun d => applyAll_unroll form d
      split
      · rename_i nothing
        -- the repeat is skipped, and its leaves are none
        rw [Form.unroll_of_expandedLength_eq_zero nothing]
        exact iterate_nothing times.toNat d
      · rw [body]
  | _ => exact applyAll_singleton _ d

theorem applyAll_unrollAll (forms : List Form) (d : Draft) :
    applyAll (Form.unrollAll forms) d = applyAll forms d := by
  cases forms with
  | nil => rw [Form.unrollAll]
  | cons form forms =>
      rw [Form.unrollAll, applyAll_append, applyAll_unroll form d, applyAll]
      cases apply form d with
      | error e => rfl
      | ok next => exact applyAll_unrollAll forms next

end

/-- Nothing is lost when the rounds of what expands to nothing are left out. -/
theorem apply_repeated (form : Form) (times : UInt32) (d : Draft) :
    apply (.repeated form times) d = iterate (apply form) times.toNat d := by
  rw [apply]
  split
  · rename_i nothing
    have body : apply form = applyAll [] := by
      funext d
      rw [← applyAll_unroll form, Form.unroll_of_expandedLength_eq_zero nothing]
    rw [body, iterate_nothing]
  · rfl

end Draft

end Songline
