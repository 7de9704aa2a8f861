import Songline.Proofs.Passages

set_option autoImplicit false

/- How much work repeats are. A round carries out the body of a repeat once. A line that is not too
large takes no more rounds than the limit for each level of its repeats, apart from idle ones, whose
body expands to nothing: these add nothing to the length of a line, and so it never limits them. -/
namespace Songline

namespace Form

mutual

/-- How many rounds a form takes. -/
def rounds : Form → Nat
  | .sequence forms => roundsAll forms
  | .repeated form times => times.toNat + times.toNat * form.rounds
  | _ => 0

def roundsAll : List Form → Nat
  | [] => 0
  | form :: forms => form.rounds + roundsAll forms

end

mutual

/-- How many of the rounds of a form are idle. -/
def idleRounds : Form → Nat
  | .sequence forms => idleRoundsAll forms
  | .repeated form times =>
    (if form.expandedLength = 0 then times.toNat else 0) + times.toNat * form.idleRounds
  | _ => 0

def idleRoundsAll : List Form → Nat
  | [] => 0
  | form :: forms => form.idleRounds + idleRoundsAll forms

end

mutual

def repeatDepth : Form → Nat
  | .sequence forms => repeatDepthAll forms
  | .repeated form _ => form.repeatDepth + 1
  | _ => 0

def repeatDepthAll : List Form → Nat
  | [] => 0
  | form :: forms => max form.repeatDepth (repeatDepthAll forms)

end

mutual

/-- Every repeat in a form repeats something. -/
def Busy : Form → Prop
  | .sequence forms => BusyAll forms
  | .repeated form _ => form.expandedLength ≠ 0 ∧ form.Busy
  | _ => True

def BusyAll : List Form → Prop
  | [] => True
  | form :: forms => form.Busy ∧ BusyAll forms

end

theorem length_unroll_repeated (form : Form) (times : UInt32) :
    (Form.repeated form times).unroll.length = times.toNat * form.unroll.length := by
  rw [unroll, List.length_flatten, List.map_replicate, List.sum_replicate_nat]

theorem length_unroll_eq_zero_iff (form : Form) :
    form.unroll.length = 0 ↔ form.expandedLength = 0 := by
  have positive : 0 < Saturating.top := by decide
  have counted := toNat_expandedLength form
  rw [← UInt64.toNat_inj, UInt64.toNat_zero]
  omega

/-- The rounds of a repeat, when its body takes at most so many for each of its leaves and at most
so many idle ones. Only a body that has leaves makes the rounds show in the length. -/
theorem rounds_repeated_le (times : Nat) {rounds leaves depth idle : Nat}
    (body : rounds ≤ leaves * depth + idle) :
    times + times * rounds ≤
      times * leaves * (depth + 1) + ((if leaves = 0 then times else 0) + times * idle) := by
  have each : times * rounds ≤ times * (leaves * depth) + times * idle := by
    rw [← Nat.mul_add]
    exact Nat.mul_le_mul_left times body
  have split : times * leaves * (depth + 1) = times * (leaves * depth) + times * leaves := by
    rw [Nat.mul_add, Nat.mul_one, Nat.mul_assoc]
  rw [split]
  split
  · omega
  · rename_i some
    have shown : times ≤ times * leaves :=
      Nat.le_mul_of_pos_right times (Nat.pos_of_ne_zero some)
    omega

mutual

theorem rounds_le : ∀ form : Form,
    form.rounds ≤ form.unroll.length * form.repeatDepth + form.idleRounds
  | .sequence forms => by
      rw [rounds, unroll, repeatDepth, idleRounds]
      exact roundsAll_le forms
  | .repeated form times => by
      have body := rounds_repeated_le times.toNat (rounds_le form)
      rw [rounds, length_unroll_repeated, repeatDepth, idleRounds]
      simpa only [length_unroll_eq_zero_iff] using body
  | .part _ | .note _ | .rest _ | .chord _ | .octave _ | .setting _ | .voice _ => by
      simp only [rounds, Nat.zero_le]

/-- Forms take no more rounds than they have leaves, for each level of repeats, and idle ones. -/
theorem roundsAll_le : ∀ forms : List Form,
    roundsAll forms ≤ (unrollAll forms).length * repeatDepthAll forms + idleRoundsAll forms
  | [] => Nat.zero_le _
  | form :: forms => by
      have first := rounds_le form
      have rest := roundsAll_le forms
      have deeper : form.unroll.length * form.repeatDepth ≤
          form.unroll.length * max form.repeatDepth (repeatDepthAll forms) :=
        Nat.mul_le_mul_left _ (Nat.le_max_left _ _)
      have deeperRest : (unrollAll forms).length * repeatDepthAll forms ≤
          (unrollAll forms).length * max form.repeatDepth (repeatDepthAll forms) :=
        Nat.mul_le_mul_left _ (Nat.le_max_right _ _)
      rw [roundsAll, unrollAll, repeatDepthAll, idleRoundsAll, List.length_append, Nat.add_mul]
      omega

end

mutual

theorem idleRounds_of_busy : ∀ form : Form, form.Busy → form.idleRounds = 0
  | .sequence forms, busy => by
      rw [idleRounds]
      exact idleRoundsAll_of_busy forms busy
  | .repeated form times, ⟨something, busy⟩ => by
      rw [idleRounds, idleRounds_of_busy form busy, if_neg something]
      rfl
  | .part _, _ | .note _, _ | .rest _, _ | .chord _, _ | .octave _, _ | .setting _, _
  | .voice _, _ => by
      simp only [idleRounds]

theorem idleRoundsAll_of_busy : ∀ forms : List Form, BusyAll forms → idleRoundsAll forms = 0
  | [], _ => rfl
  | form :: forms, ⟨first, others⟩ => by
      rw [idleRoundsAll, idleRounds_of_busy form first, idleRoundsAll_of_busy forms others]

end

end Form

/-- What forms came to, and the rounds that it took. -/
structure Counted where
  result : Except ScoreError Draft
  rounds : Nat

namespace Counted

def oneMore (c : Counted) : Counted := { c with rounds := c.rounds + 1 }

def andThen (c : Counted) (next : Draft → Counted) : Counted :=
  match c.result with
  | .error e => ⟨.error e, c.rounds⟩
  | .ok d => ⟨(next d).result, c.rounds + (next d).rounds⟩

/-- What was counted came to a result after all of so many rounds, or failed before. -/
structure Took (c : Counted) (result : Except ScoreError Draft) (rounds : Nat) : Prop where
  same : c.result = result
  most : c.rounds ≤ rounds
  all : ∀ d, result = .ok d → c.rounds = rounds

variable {c : Counted} {result : Except ScoreError Draft} {rounds : Nat}

theorem Took.oneMore (took : c.Took result rounds) : c.oneMore.Took result (rounds + 1) where
  same := took.same
  most := Nat.succ_le_succ took.most
  all d done := congrArg Nat.succ (took.all d done)

theorem Took.andThen {next : Draft → Counted} {plain : Draft → Except ScoreError Draft}
    {more : Nat} (first : c.Took result rounds) (later : ∀ d, (next d).Took (plain d) more) :
    (c.andThen next).Took (result.bind plain) (rounds + more) := by
  obtain ⟨rfl, most, all⟩ := first
  unfold Counted.andThen
  cases done : c.result with
  | error e =>
      refine ⟨rfl, Nat.le_trans most (Nat.le_add_right rounds more), fun d impossible => ?_⟩
      cases impossible
  | ok d =>
      have rest := later d
      have before := all d done
      refine ⟨rest.same, Nat.add_le_add most rest.most, fun last finished => ?_⟩
      have after := rest.all last finished
      simp only [before, after]

end Counted

namespace Draft

/-- Does something a number of times, until it fails, and counts the rounds. -/
def iterateCounting (step : Draft → Counted) : Nat → Draft → Counted
  | 0, d => ⟨.ok d, 0⟩
  | n + 1, d => (step d).oneMore.andThen (iterateCounting step n)

mutual

/-- Applies a form, idle rounds and all, and counts the rounds. -/
def applyCounting : Form → Draft → Counted
  | .sequence forms, d => applyAllCounting forms d
  | .repeated form times, d => iterateCounting (applyCounting form) times.toNat d
  | form, d => ⟨apply form d, 0⟩

def applyAllCounting : List Form → Draft → Counted
  | [], d => ⟨.ok d, 0⟩
  | form :: forms, d => (applyCounting form d).andThen (applyAllCounting forms)

end

theorem took_iterate {step : Draft → Counted} {plain : Draft → Except ScoreError Draft}
    {rounds : Nat} (once : ∀ d, (step d).Took (plain d) rounds) (n : Nat) (d : Draft) :
    (iterateCounting step n d).Took (iterate plain n d) (n + n * rounds) := by
  induction n generalizing d with
  | zero =>
      rw [iterateCounting, iterate, Nat.zero_mul]
      exact ⟨rfl, Nat.le_refl 0, fun _ _ => rfl⟩
  | succ n ih =>
      have total : n + 1 + (n + 1) * rounds = rounds + 1 + (n + n * rounds) := by
        rw [Nat.add_mul, Nat.one_mul]
        omega
      have goesOn : iterate plain (n + 1) d = (plain d).bind (iterate plain n) := by
        rw [iterate]
        cases plain d <;> rfl
      rw [iterateCounting, goesOn, total]
      exact (once d).oneMore.andThen ih

mutual

theorem took_apply : ∀ (form : Form) (d : Draft),
    (applyCounting form d).Took (apply form d) form.rounds
  | .sequence forms, d => by
      rw [applyCounting, apply, Form.rounds]
      exact took_applyAll forms d
  | .repeated form times, d => by
      rw [applyCounting, apply_repeated, Form.rounds]
      exact took_iterate (took_apply form) times.toNat d
  | .part _, d | .note _, d | .rest _, d | .chord _, d | .octave _, d | .setting _, d
  | .voice _, d => by
      simp only [applyCounting, Form.rounds]
      exact ⟨rfl, Nat.le_refl 0, fun _ _ => rfl⟩

/-- Counting changes nothing, and counts the rounds that forms take. -/
theorem took_applyAll : ∀ (forms : List Form) (d : Draft),
    (applyAllCounting forms d).Took (applyAll forms d) (Form.roundsAll forms)
  | [], d => by
      rw [applyAllCounting, applyAll, Form.roundsAll]
      exact ⟨rfl, Nat.le_refl 0, fun _ _ => rfl⟩
  | form :: forms, d => by
      have goesOn : applyAll (form :: forms) d = (apply form d).bind (applyAll forms) := by
        rw [applyAll]
        cases apply form d <;> rfl
      rw [applyAllCounting, goesOn, Form.roundsAll]
      exact (took_apply form d).andThen (took_applyAll forms)

end

/-- A line that is not too large takes as many rounds as its repeats say, which are no more than
the limit for each level of repeats if every repeat repeats something. Beyond that there are only
idle ones. -/
theorem rounds_le_of_accepted {forms : List Form}
    (accepted : (Form.expandedLengths forms).toNat ≤ maxExpanded) :
    (∀ d : Draft,
        (applyAllCounting forms d).Took (applyAll forms d) (Form.roundsAll forms)) ∧
      (Form.BusyAll forms →
        Form.roundsAll forms ≤ maxExpanded * Form.repeatDepthAll forms) ∧
      Form.roundsAll forms ≤
        maxExpanded * Form.repeatDepthAll forms + Form.idleRoundsAll forms := by
  have within : (Form.unrollAll forms).length ≤ maxExpanded := by
    have below : maxExpanded < Saturating.top := by decide
    rw [Form.toNat_expandedLengths] at accepted
    omega
  have bound : Form.roundsAll forms ≤
      maxExpanded * Form.repeatDepthAll forms + Form.idleRoundsAll forms :=
    calc Form.roundsAll forms
      _ ≤ (Form.unrollAll forms).length * Form.repeatDepthAll forms + Form.idleRoundsAll forms :=
          Form.roundsAll_le forms
      _ ≤ maxExpanded * Form.repeatDepthAll forms + Form.idleRoundsAll forms :=
          Nat.add_le_add_right (Nat.mul_le_mul_right _ within) _
  refine ⟨took_applyAll forms, fun busy => ?_, bound⟩
  rw [Form.idleRoundsAll_of_busy forms busy] at bound
  exact bound

def refrain : List Form :=
  [.part ⟨["piano"], none⟩,
    .repeated (.sequence [.repeated (.sequence [.note ⟨'c', 0, none⟩, .rest none]) 3]) 2]

theorem refrain_rounds :
    (Form.expandedLengths refrain).toNat ≤ maxExpanded ∧ Form.BusyAll refrain ∧
      (applyAllCounting refrain empty).rounds = 8 ∧
      8 ≤ maxExpanded * Form.repeatDepthAll refrain := by
  have accepted : (Form.expandedLengths refrain).toNat ≤ maxExpanded := by
    decide +kernel
  have busy : Form.BusyAll refrain := by
    simp only [refrain, Form.BusyAll, Form.Busy, and_true, true_and]
    decide +kernel
  have succeeds : (applyAll refrain empty).toOption.isSome = true := by
    decide +kernel
  have said : Form.roundsAll refrain = 8 := by
    decide +kernel
  obtain ⟨took, bound, -⟩ := rounds_le_of_accepted accepted
  have counted := (took empty).all _ (ok_getD succeeds empty)
  rw [said] at counted bound
  exact ⟨accepted, busy, counted, bound busy⟩

/-- A line that takes more rounds than the limit and is not too large: it expands to its
declaration. -/
theorem idle_rounds_accepted :
    let forms := ((Entry.part.read "piano: []*100001").toOption).getD []
    (Entry.part.read "piano: []*100001").toOption.isSome = true ∧
      (empty.evaluate .part forms).toOption.isSome = true ∧
      (Form.expandedLengths forms).toNat ≤ maxExpanded ∧
      (applyAllCounting forms empty).rounds = 100001 ∧
      maxExpanded * Form.repeatDepthAll forms < 100001 := by
  intro forms
  have evaluated : (empty.evaluate .part forms).toOption.isSome = true := by
    decide +kernel
  have succeeds : (applyAll forms empty).toOption.isSome = true := by
    decide +kernel
  have said : Form.roundsAll forms = 100001 := by
    decide +kernel
  have counted := (took_applyAll forms empty).all _ (ok_getD succeeds empty)
  rw [said] at counted
  refine ⟨?_, evaluated, ?_, counted, ?_⟩
  · decide +kernel
  · decide +kernel
  · decide +kernel

end Draft

end Songline
