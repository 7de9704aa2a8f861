import Songline.Score.Draft

set_option autoImplicit false

namespace Songline

namespace Form

mutual

/-- Every declaration in a form is of a certain kind. -/
def Admits (admitted : PartDecl → Prop) : Form → Prop
  | .part decl => admitted decl
  | .sequence forms => AdmitsAll admitted forms
  | .repeated form _ => form.Admits admitted
  | _ => True

def AdmitsAll (admitted : PartDecl → Prop) : List Form → Prop
  | [] => True
  | form :: forms => form.Admits admitted ∧ AdmitsAll admitted forms

end

theorem admitsAll_append {admitted : PartDecl → Prop} (forms more : List Form) :
    AdmitsAll admitted (forms ++ more) ↔ AdmitsAll admitted forms ∧ AdmitsAll admitted more := by
  induction forms with
  | nil => simp only [List.nil_append, AdmitsAll, true_and]
  | cons form forms ih => rw [List.cons_append, AdmitsAll, AdmitsAll, ih, and_assoc]

mutual

theorem admits_true : ∀ form : Form, form.Admits fun _ => True
  | .sequence forms => admitsAll_true forms
  | .repeated form _ => admits_true form
  | .part _ | .note _ | .rest _ | .chord _ | .octave _ | .setting _ | .voice _ => trivial

theorem admitsAll_true : ∀ forms : List Form, AdmitsAll (fun _ => True) forms
  | [] => trivial
  | form :: forms => ⟨admits_true form, admitsAll_true forms⟩

end

end Form

namespace Draft

/-- A relation that steps can be chained in, and that every step of forms leads along, as long as
declarations are of a certain kind. -/
structure FormSteps (admitted : PartDecl → Prop) (R : Draft → Draft → Prop) : Prop where
  refl : ∀ d, R d d
  trans : ∀ {a b c}, R a b → R b c → R a c
  declare : ∀ {d d' decl}, admitted decl → d.declare decl = .ok d' → R d d'
  setEverywhere : ∀ {d d' s}, d.setEverywhere s = .ok d' → R d d'
  act : ∀ {d d' a}, d.act a = .ok d' → R d d'

/-- A relation that every step of lines leads along. -/
structure Steps (R : Draft → Draft → Prop) : Prop extends FormSteps (fun _ => True) R where
  deselect : ∀ d, R d (d.select [])

section

variable {R : Draft → Draft → Prop}

/-- An action in the selected parts is one in each of them after another. -/
theorem act_chain (refl : ∀ d, R d d) (trans : ∀ {a b c}, R a b → R b c → R a c)
    {a : Part.Action} (once : ∀ {d d' id}, d.actIn a id = .ok d' → R d d') {d d' : Draft}
    (done : d.act a = .ok d') : R d d' := by
  have chain : ∀ (ids : List PartId) {d d' : Draft},
      ids.foldlM (fun d => d.actIn a) d = .ok d' → R d d' := by
    intro ids
    induction ids with
    | nil =>
        intro d d' done
        cases done
        exact refl _
    | cons id ids ih =>
        intro d d' done
        rw [List.foldlM_cons] at done
        cases first : d.actIn a id with
        | error e =>
            rw [first] at done
            cases done
        | ok next =>
            rw [first] at done
            exact trans (once first) (ih done)
  unfold act at done
  split at done
  · cases done
  · exact chain d.current done

end

namespace FormSteps

variable {admitted : PartDecl → Prop} {R : Draft → Draft → Prop}

theorem iterate (steps : FormSteps admitted R) {step : Draft → Except ScoreError Draft}
    (once : ∀ {d d'}, step d = .ok d' → R d d') (n : Nat) {d d' : Draft}
    (done : Draft.iterate step n d = .ok d') : R d d' := by
  induction n generalizing d with
  | zero =>
      cases done
      exact steps.refl _
  | succ n ih =>
      rw [Draft.iterate] at done
      cases first : step d with
      | error e =>
          rw [first] at done
          cases done
      | ok next =>
          rw [first] at done
          exact steps.trans (once first) (ih done)

mutual

theorem apply (steps : FormSteps admitted R) : ∀ (form : Form) {d d' : Draft},
    form.Admits admitted → Draft.apply form d = .ok d' → R d d'
  | .part decl, _, _, kind, done => by
      rw [Draft.apply] at done
      exact steps.declare kind done
  | .sequence forms, _, _, kind, done => by
      rw [Draft.apply] at done
      exact applyAll steps forms kind done
  | .repeated form times, d, _, kind, done => by
      rw [Draft.apply] at done
      split at done
      · cases done
        exact steps.refl d
      · exact steps.iterate (apply steps form kind) times.toNat done
  | .setting s, _, _, _, done => by
      rw [Draft.apply] at done
      split at done
      · exact steps.setEverywhere done
      · exact steps.act done
  | .note n, _, _, _, done => by
      rw [Draft.apply] at done
      exact steps.act done
  | .rest l, _, _, _, done => by
      rw [Draft.apply] at done
      exact steps.act done
  | .chord ms, _, _, _, done => by
      rw [Draft.apply] at done
      exact steps.act done
  | .octave change, _, _, _, done => by
      rw [Draft.apply] at done
      exact steps.act done
  | .voice n, _, _, _, done => by
      rw [Draft.apply] at done
      exact steps.act done

theorem applyAll (steps : FormSteps admitted R) : ∀ (forms : List Form) {d d' : Draft},
    Form.AdmitsAll admitted forms → Draft.applyAll forms d = .ok d' → R d d'
  | [], d, _, _, done => by
      rw [Draft.applyAll] at done
      cases done
      exact steps.refl d
  | form :: forms, d, _, kinds, done => by
      rw [Draft.applyAll] at done
      cases first : Draft.apply form d with
      | error e =>
          rw [first] at done
          cases done
      | ok next =>
          rw [first] at done
          exact steps.trans (apply steps form kinds.1 first) (applyAll steps forms kinds.2 done)

end

end FormSteps

namespace Steps

variable {R : Draft → Draft → Prop}

theorem applyAll (steps : Steps R) (forms : List Form) {d d' : Draft}
    (done : Draft.applyAll forms d = .ok d') : R d d' :=
  steps.toFormSteps.applyAll forms (Form.admitsAll_true forms) done

theorem applyLine (steps : Steps R) {entry : Entry} {forms : List Form} {d d' : Draft}
    (done : d.applyLine entry forms = .ok d') : R d d' := by
  cases entry with
  | musicData =>
      simp only [Draft.applyLine] at done
      split at done
      · cases done
      · exact steps.applyAll forms done
  | part => exact steps.applyAll forms done
  | score => exact steps.trans (steps.deselect d) (steps.applyAll forms done)

theorem evaluate (steps : Steps R) {entry : Entry} {forms : List Form} {d d' : Draft}
    (done : d.evaluate entry forms = .ok d') : R d d' := by
  simp only [Draft.evaluate] at done
  split at done
  · cases done
  · exact steps.applyLine done

end Steps

/-- The drafts that lines lead to. -/
inductive Reachable : Draft → Prop
  | empty : Reachable .empty
  | evaluate {d d' : Draft} {entry : Entry} {forms : List Form} (before : Reachable d)
      (done : d.evaluate entry forms = .ok d') : Reachable d'

/-- A run that succeeds can be named by its result. -/
theorem ok_getD {ε α : Type} {x : Except ε α} (succeeds : x.toOption.isSome = true)
    (other : α) : x = .ok (x.toOption.getD other) := by
  cases x with
  | error e => cases succeeds
  | ok a => rfl

/-- What holds of the empty draft and is kept by every step holds of every draft. -/
theorem Reachable.induction {P : Draft → Prop} (steps : Steps fun d d' => P d → P d')
    (empty : P .empty) {d : Draft} (reached : Reachable d) : P d := by
  induction reached with
  | empty => exact empty
  | evaluate _ done ih => exact steps.evaluate done ih

end Draft

end Songline
