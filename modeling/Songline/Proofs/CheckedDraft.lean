import Songline.Proofs.CheckedCursor
import Songline.Proofs.DraftTables

set_option autoImplicit false

namespace Songline.Checked

def actIn (d : Draft) (a : Part.Action) (id : PartId) : Checked (Except ScoreError Draft) :=
  match d.parts[id.index]? with
  | none => pure (.ok d)
  | some p => do
    match ← actPart p a with
    | (.error e, _) => return .error e
    | (.ok events, p) =>
      return .ok { d with
        parts := d.parts.set id.index p
        events := d.events.insertMany events }

def actInAll (a : Part.Action) : List PartId → Draft → Checked (Except ScoreError Draft)
  | [], d => pure (.ok d)
  | id :: ids, d => do
    match ← actIn d a id with
    | .error e => return .error e
    | .ok d => actInAll a ids d

def act (d : Draft) (a : Part.Action) : Checked (Except ScoreError Draft) :=
  if d.current.isEmpty then pure (.error .noActivePart) else actInAll a d.current d

def resolveAlias (d : Draft) (name nick : String) :
    Checked (Except ScoreError (PartId × Draft)) :=
  match Catalogue.find? name with
  | none => pure (.error (.unknownInstrument name))
  | some instrument =>
    match d.nicknames.lookup nick with
    | some [id] => do
      let p ← d.parts[id.index]?
      if p.player.instrument = instrument.name then return .ok (id, d)
      else return .error (.aliasInUse nick)
    | some _ => pure (.error (.aliasInUse nick))
    | none =>
      let (id, d) := d.create instrument nick
      pure (.ok (id, { d with nicknames := (nick, [id]) :: d.nicknames }))

def declare (d : Draft) (decl : PartDecl) : Checked (Except ScoreError Draft) :=
  match decl.names, decl.nick with
  | [name], some nick => do
    match ← resolveAlias d name nick with
    | .error e => return .error e
    | .ok (id, d) => return .ok (d.select [id])
  | _, _ => pure (d.declare decl)

def iterate (step : Draft → Checked (Except ScoreError Draft)) :
    Nat → Draft → Checked (Except ScoreError Draft)
  | 0, d => pure (.ok d)
  | n + 1, d => do
    match ← step d with
    | .error e => return .error e
    | .ok d => iterate step n d

mutual

def apply : Form → Draft → Checked (Except ScoreError Draft)
  | .part decl, d => declare d decl
  | .sequence forms, d => applyAll forms d
  | .repeated form times, d =>
    if form.expandedLength = 0 then pure (.ok d) else iterate (apply form) times.toNat d
  | .setting s, d =>
    if s.everywhere ∨ d.current.isEmpty then pure (d.setEverywhere s)
    else act d (.move (.set s.name s.value))
  | .note n, d => act d (.move (.note n))
  | .rest l, d => act d (.move (.rest l))
  | .chord ms, d => act d (.move (.chord ms))
  | .octave change, d => act d (.move (.octave change))
  | .voice n, d => act d (.voice n)

def applyAll : List Form → Draft → Checked (Except ScoreError Draft)
  | [], d => pure (.ok d)
  | form :: forms, d => do
    match ← apply form d with
    | .error e => return .error e
    | .ok d => applyAll forms d

end

def applyLine (d : Draft) (entry : Entry) (forms : List Form) :
    Checked (Except ScoreError Draft) :=
  match entry with
  | .musicData => if d.current.isEmpty then pure (.error .noActivePart) else applyAll forms d
  | .part => applyAll forms d
  | .score => applyAll forms (d.select [])

def evaluate (d : Draft) (entry : Entry) (forms : List Form) : Checked (Except ScoreError Draft) :=
  if (Form.expandedLengths forms).toNat > maxExpanded then pure (.error (.tooLarge maxExpanded))
  else applyLine d entry forms

theorem actIn_eq (d : Draft) {a : Part.Action} (limited : LimitedAction a) (id : PartId) :
    actIn d a id = some (d.actIn a id) := by
  unfold actIn Draft.actIn
  cases d.parts[id.index]? with
  | none => rfl
  | some p =>
      simp only [actPart_eq p limited, Option.bind_eq_bind, Option.bind_some]
      rcases p.act a with ⟨_ | _, next⟩ <;> rfl

theorem actInAll_eq {a : Part.Action} (limited : LimitedAction a) (ids : List PartId) (d : Draft) :
    actInAll a ids d = some (ids.foldlM (fun d => d.actIn a) d) := by
  induction ids generalizing d with
  | nil => rfl
  | cons id ids ih =>
      simp only [actInAll, actIn_eq d limited, ih, List.foldlM_cons, Option.bind_eq_bind,
        Option.bind_some]
      cases d.actIn a id <;> rfl

theorem act_eq (d : Draft) {a : Part.Action} (limited : LimitedAction a) :
    act d a = some (d.act a) := by
  unfold act Draft.act
  split
  · rfl
  · exact actInAll_eq limited d.current d

/-- The part of an alias is there, as names are filed for parts only. -/
theorem resolveAlias_eq {d : Draft} (filed : d.Filed) (name nick : String) :
    resolveAlias d name nick = some (d.resolveAlias name nick) := by
  unfold resolveAlias Draft.resolveAlias
  cases Catalogue.find? name with
  | none => rfl
  | some instrument =>
      rcases found : d.nicknames.lookup nick with _ | _ | ⟨id, _ | ⟨other, more⟩⟩
      · rfl
      · rfl
      · have inside := filed.nicknames _ (Draft.mem_of_lookup found) id List.mem_cons_self
        have there : d.parts[id.index]? = some d.parts[id.index] := List.getElem?_eq_getElem inside
        simp only [there, Option.bind_eq_bind, Option.bind_some, Option.map_some,
          Option.some.injEq]
        split <;> rfl
      · rfl

theorem declare_eq {d : Draft} (filed : d.Filed) (decl : PartDecl) :
    declare d decl = some (d.declare decl) := by
  unfold declare
  split
  · rename_i name nick named nicknamed
    simp only [resolveAlias_eq filed, Draft.declare, named, nicknamed, Option.bind_eq_bind,
      Option.bind_some]
    rcases d.resolveAlias name nick with _ | _ <;> rfl
  · rfl

theorem iterate_eq {step : Draft → Checked (Except ScoreError Draft)}
    {plain : Draft → Except ScoreError Draft}
    (once : ∀ {d : Draft}, d.Filed → step d = some (plain d))
    (kept : ∀ {d d' : Draft}, plain d = .ok d' → d.Filed → d'.Filed) (n : Nat) {d : Draft}
    (filed : d.Filed) : iterate step n d = some (Draft.iterate plain n d) := by
  induction n generalizing d with
  | zero => rfl
  | succ n ih =>
      simp only [iterate, once filed, Draft.iterate, Option.bind_eq_bind, Option.bind_some]
      cases first : plain d with
      | error e => rfl
      | ok next => exact ih (kept first filed)

theorem filed_apply {form : Form} {d d' : Draft} (done : Draft.apply form d = .ok d')
    (filed : d.Filed) : d'.Filed :=
  Draft.steps_filed.apply form form.admits_true done filed

mutual

theorem apply_eq : ∀ (form : Form) {d : Draft}, form.Holds Note.Limited → d.Filed →
    apply form d = some (Draft.apply form d)
  | .part decl, _, _, filed => by
      rw [apply, Draft.apply]
      exact declare_eq filed decl
  | .sequence forms, _, limited, filed => by
      rw [apply, Draft.apply]
      exact applyAll_eq forms limited filed
  | .repeated form times, _, limited, filed => by
      rw [apply, Draft.apply]
      split
      · rfl
      · exact iterate_eq (apply_eq form limited) filed_apply times.toNat filed
  | .setting s, d, _, _ => by
      rw [apply, Draft.apply]
      split
      · rfl
      · exact act_eq d trivial
  | .note n, d, limited, _ => by
      rw [apply, Draft.apply]
      exact act_eq d limited
  | .rest l, d, _, _ => by
      rw [apply, Draft.apply]
      exact act_eq d trivial
  | .chord ms, d, limited, _ => by
      rw [apply, Draft.apply]
      exact act_eq d limited
  | .octave change, d, _, _ => by
      rw [apply, Draft.apply]
      exact act_eq d trivial
  | .voice n, d, _, _ => by
      rw [apply, Draft.apply]
      exact act_eq d trivial

theorem applyAll_eq : ∀ (forms : List Form) {d : Draft}, Form.HoldsAll Note.Limited forms →
    d.Filed → applyAll forms d = some (Draft.applyAll forms d)
  | [], _, _, _ => by
      rw [applyAll, Draft.applyAll]
      rfl
  | form :: forms, d, limited, filed => by
      rw [applyAll, Draft.applyAll, apply_eq form limited.1 filed]
      simp only [Option.bind_eq_bind, Option.bind_some]
      cases first : Draft.apply form d with
      | error e => rfl
      | ok next => exact applyAll_eq forms limited.2 (filed_apply first filed)

end

/-- Every line with notes that can be written can be applied to a draft that is in order. -/
theorem evaluate_eq {d : Draft} (filed : d.Filed) (entry : Entry) {forms : List Form}
    (limited : Form.HoldsAll Note.Limited forms) :
    evaluate d entry forms = some (d.evaluate entry forms) := by
  have deselected : (d.select []).Filed :=
    Draft.filed_select filed fun _ inside => absurd inside List.not_mem_nil
  unfold evaluate Draft.evaluate
  split
  · rfl
  · cases entry with
    | musicData =>
        unfold applyLine Draft.applyLine
        simp only
        split
        · rfl
        · exact applyAll_eq forms limited filed
    | part => exact applyAll_eq forms limited filed
    | score => exact applyAll_eq forms limited deselected

end Songline.Checked
