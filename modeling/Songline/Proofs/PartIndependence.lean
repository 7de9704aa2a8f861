import Songline.Proofs.PartActions
import Songline.Proofs.Unrolling

set_option autoImplicit false

namespace Songline

namespace Form

mutual

/-- Neither a declaration nor a setting for every part, at any depth. -/
def Local : Form → Prop
  | .part _ => False
  | .sequence forms => LocalAll forms
  | .repeated form _ => form.Local
  | .setting s => s.everywhere = false
  | _ => True

def LocalAll : List Form → Prop
  | [] => True
  | form :: forms => form.Local ∧ LocalAll forms

end

/-- What a leaf is to a selected part. -/
def action? : Form → Option Part.Action
  | .note n => some (.move (.note n))
  | .rest length => some (.move (.rest length))
  | .chord members => some (.move (.chord members))
  | .octave change => some (.move (.octave change))
  | .setting s => if s.everywhere then none else some (.move (.set s.name s.value))
  | .voice n => some (.voice n)
  | .part _ | .sequence _ | .repeated _ _ => none

mutual

theorem action?_of_local (form : Form) (isLocal : form.Local) :
    ∀ leaf ∈ form.unroll, ∃ a, leaf.action? = some a := by
  cases form with
  | part decl => exact isLocal.elim
  | sequence forms =>
      rw [unroll]
      exact action?_of_localAll forms isLocal
  | repeated form times =>
      rw [unroll]
      intro leaf member
      obtain ⟨copy, copies, member⟩ := List.mem_flatten.mp member
      rw [List.eq_of_mem_replicate copies] at member
      exact action?_of_local form isLocal leaf member
  | setting s =>
      intro leaf member
      rw [List.mem_singleton.mp member]
      have here : s.everywhere = false := isLocal
      refine ⟨.move (.set s.name s.value), ?_⟩
      simp only [action?, here, Bool.false_eq_true, ↓reduceIte]
  | _ =>
      intro leaf member
      rw [List.mem_singleton.mp member]
      exact ⟨_, rfl⟩

theorem action?_of_localAll (forms : List Form) (isLocal : LocalAll forms) :
    ∀ leaf ∈ unrollAll forms, ∃ a, leaf.action? = some a := by
  cases forms with
  | nil => exact fun leaf member => absurd member List.not_mem_nil
  | cons form forms =>
      rw [unrollAll]
      intro leaf member
      rcases List.mem_append.mp member with here | later
      · exact action?_of_local form isLocal.1 leaf here
      · exact action?_of_localAll forms isLocal.2 leaf later

end

end Form

namespace Draft

/-- The draft with one part selected. -/
def only (d : Draft) (id : PartId) : Draft := { d with current := [id] }

theorem filed_only {d : Draft} {id : PartId} (filed : Filed d) (member : id ∈ d.current) :
    Filed (d.only id) where
  stock := filed.stock
  nicknames := filed.nicknames
  current := by
    intro other here
    rw [List.mem_singleton.mp here]
    exact filed.current id member
  once := by
    rw [only]
    exact List.pairwise_singleton _ _

/-- Alone, a part succeeds unless it fails among the others. -/
theorem perform_only_ok_iff {d : Draft} {id : PartId} (actions : List Part.Action)
    (filed : Filed d) (member : id ∈ d.current) :
    (∃ s, (d.only id).perform actions = .ok s) ↔ ¬ d.Fails actions id := by
  rw [perform_ok_iff _ _ (filed_only filed member) (List.cons_ne_nil _ _)]
  refine ⟨fun each => each id (List.mem_singleton.mpr rfl), fun fine one here => ?_⟩
  rw [List.mem_singleton.mp here]
  exact fine

theorem played_of_perform_only {d s : Draft} {id : PartId} {actions : List Part.Action}
    (filed : Filed d) (member : id ∈ d.current) (solo : (d.only id).perform actions = .ok s) :
    Played (d.only id) [id] actions s :=
  played_of_perform (filed_only filed member) (List.cons_ne_nil _ _) solo

/-- A part gets where it gets alone, and lays out there what it lays out alone. -/
theorem Played.agrees {d d' s : Draft} {id : PartId} {actions : List Part.Action}
    (played : Played d d.current actions d') (alone : Played (d.only id) [id] actions s)
    (member : id ∈ d.current) :
    ∃ events q, d.Runs actions id events q ∧ d'.parts[id.index]? = some q ∧
      s.parts[id.index]? = some q ∧ ∀ e, e ∈ s.events ↔ e ∈ d.events ∨ e ∈ events := by
  obtain ⟨events, q, runs, there⟩ := played.each id member
  obtain ⟨events', q', runs', there'⟩ := alone.each id (List.mem_singleton.mpr rfl)
  obtain ⟨rfl, rfl⟩ := runs.unique runs'
  refine ⟨events, q, runs, there, there', fun e => (alone.events e).trans (or_congr_right ?_)⟩
  refine ⟨?_, fun laid => ⟨id, List.mem_singleton.mpr rfl, events, q, runs', laid⟩⟩
  rintro ⟨one, here, others, r, runsOne, laid⟩
  rw [List.mem_singleton.mp here] at runsOne
  obtain ⟨rfl, rfl⟩ := runs.unique runsOne
  exact laid

theorem perform_independent {d d' : Draft} {actions : List Part.Action} (filed : Filed d)
    (selected : d.current ≠ []) (done : d.perform actions = .ok d') :
    (∀ id ∈ d.current, ∃ s, (d.only id).perform actions = .ok s ∧
      ∃ p, s.parts[id.index]? = some p ∧ d'.parts[id.index]? = some p) ∧
    ∀ e, e ∈ d'.events ↔
      ∃ id ∈ d.current, ∃ s, (d.only id).perform actions = .ok s ∧ e ∈ s.events := by
  have played := played_of_perform filed selected done
  have soloists : ∀ id ∈ d.current, ∃ s, (d.only id).perform actions = .ok s := fun id member =>
    (perform_only_ok_iff actions filed member).mpr
      ((d.perform_ok_iff actions filed selected).mp ⟨d', done⟩ id member)
  refine ⟨fun id member => ?_, fun e => ⟨fun laid => ?_, ?_⟩⟩
  · obtain ⟨s, solo⟩ := soloists id member
    obtain ⟨events, q, -, there, there', -⟩ :=
      played.agrees (played_of_perform_only filed member solo) member
    exact ⟨s, solo, q, there', there⟩
  · rcases (played.events e).mp laid with old | ⟨id, member, events, q, runs, laid⟩
    · obtain ⟨first, chosen⟩ := List.exists_mem_of_ne_nil d.current selected
      obtain ⟨s, solo⟩ := soloists first chosen
      obtain ⟨_, _, -, -, -, heard⟩ :=
        played.agrees (played_of_perform_only filed chosen solo) chosen
      exact ⟨first, chosen, s, solo, (heard e).mpr (Or.inl old)⟩
    · obtain ⟨s, solo⟩ := soloists id member
      obtain ⟨own, q', runs', -, -, heard⟩ :=
        played.agrees (played_of_perform_only filed member solo) member
      obtain ⟨rfl, rfl⟩ := runs.unique runs'
      exact ⟨id, member, s, solo, (heard e).mpr (Or.inr laid)⟩
  · rintro ⟨id, member, s, solo, laid⟩
    obtain ⟨events, q, runs, -, -, heard⟩ :=
      played.agrees (played_of_perform_only filed member solo) member
    refine (played.events e).mpr ((heard e).mp laid |>.imp_right fun laid => ?_)
    exact ⟨id, member, events, q, runs, laid⟩

theorem apply_of_action? {leaf : Form} {a : Part.Action} (acts : leaf.action? = some a) (d : Draft)
    (selected : d.current ≠ []) : apply leaf d = d.act a := by
  cases leaf with
  | part | sequence | repeated => cases acts
  | setting s =>
      simp only [Form.action?] at acts
      split at acts
      · cases acts
      · rename_i here
        cases acts
        rw [apply, if_neg]
        simp only [here, List.isEmpty_iff, selected, or_self, not_false_eq_true,
          Bool.false_eq_true]
  | _ =>
      cases acts
      rw [apply]

/-- Leaves that are actions are carried out by the selected parts. -/
theorem applyAll_of_actions (leaves : List Form)
    (acts : ∀ leaf ∈ leaves, ∃ a, leaf.action? = some a) :
    ∃ actions, ∀ d : Draft, d.current ≠ [] → applyAll leaves d = d.perform actions := by
  induction leaves with
  | nil => exact ⟨[], fun d _ => by rw [applyAll, perform]⟩
  | cons leaf leaves ih =>
      obtain ⟨a, isAction⟩ := acts leaf List.mem_cons_self
      obtain ⟨actions, same⟩ := ih fun leaf member => acts leaf (List.mem_cons_of_mem _ member)
      refine ⟨a :: actions, fun d selected => ?_⟩
      rw [applyAll, perform, apply_of_action? isAction d selected]
      cases done : d.act a with
      | error e => rfl
      | ok next =>
          apply same next
          rw [(sameTables_act done).current]
          exact selected

/-- A line of local forms is refused for its length, or carried out by the selected parts. -/
theorem evaluate_of_localAll {forms : List Form} (isLocal : Form.LocalAll forms) :
    (∀ d : Draft, ∃ e, d.evaluate .musicData forms = .error e) ∨
      ∃ actions, ∀ d : Draft, d.current ≠ [] →
        d.evaluate .musicData forms = d.perform actions := by
  by_cases long : (Form.expandedLengths forms).toNat > maxExpanded
  · exact Or.inl fun d => ⟨_, by rw [evaluate, if_pos long]⟩
  · obtain ⟨actions, same⟩ :=
      applyAll_of_actions (Form.unrollAll forms) (Form.action?_of_localAll forms isLocal)
    refine Or.inr ⟨actions, fun d selected => ?_⟩
    rw [evaluate, if_neg long, ← same d selected, applyAll_unrollAll]
    simp only [applyLine, List.isEmpty_iff, selected, ↓reduceIte]

/-- Local forms succeed in all selected parts together just when they succeed in each alone. They
take each part where it gets alone, lay out what all of them lay out alone, and change nothing
else. A part is known by its number, as long as there are no more than `2 ^ 32` of them. -/
theorem parts_independent {d : Draft} {forms : List Form} (reached : Reachable d)
    (selected : d.current ≠ []) (isLocal : Form.LocalAll forms) :
    ((∃ d', d.evaluate .musicData forms = .ok d') ↔
      ∀ id ∈ d.current, ∃ s, (d.only id).evaluate .musicData forms = .ok s) ∧
    ∀ d', d.evaluate .musicData forms = .ok d' →
      (∀ id ∈ d.current, ∃ s, (d.only id).evaluate .musicData forms = .ok s ∧
        ∃ p, s.parts[id.index]? = some p ∧ d'.parts[id.index]? = some p) ∧
      (∀ e, e ∈ d'.events ↔ ∃ id ∈ d.current, ∃ s,
        (d.only id).evaluate .musicData forms = .ok s ∧ e ∈ s.events) ∧
      (∀ i, ⟨i⟩ ∉ d.current → d'.parts[i]? = d.parts[i]?) ∧ SameTables d d' := by
  have filed := reached.filed
  obtain ⟨first, chosen⟩ := List.exists_mem_of_ne_nil d.current selected
  rcases evaluate_of_localAll isLocal with refused | ⟨actions, same⟩
  · obtain ⟨e, whole⟩ := refused d
    obtain ⟨e', solo⟩ := refused (d.only first)
    rw [whole]
    refine ⟨⟨?_, fun each => ?_⟩, ?_⟩
    · rintro ⟨d', done⟩
      cases done
    · obtain ⟨s, done⟩ := each first chosen
      rw [solo] at done
      cases done
    · rintro d' done
      cases done
  · have alone : ∀ id, (d.only id).evaluate .musicData forms = (d.only id).perform actions :=
      fun id => same (d.only id) (List.cons_ne_nil _ _)
    simp only [alone, same d selected]
    refine ⟨?_, fun d' done => ?_⟩
    · rw [perform_ok_iff d actions filed selected]
      exact forall₂_congr fun id member => (perform_only_ok_iff actions filed member).symm
    · obtain ⟨parts, events⟩ := perform_independent filed selected done
      have played := played_of_perform filed selected done
      exact ⟨parts, events, played.others, played.tables⟩

def strings : Draft :=
  ((empty.evaluate .part [.part ⟨["violin", "viola"], none⟩]).toOption).getD empty

theorem reachable_strings : Reachable strings :=
  have done : empty.evaluate .part [.part ⟨["violin", "viola"], none⟩] = .ok strings :=
    ok_getD (by decide +kernel) empty
  .evaluate .empty done

def riff : List Form :=
  [.note ⟨'c', 0, none⟩,
    .repeated (.sequence [.voice 1, .note ⟨'e', 0, none⟩, .voice 2, .setting ⟨"quant", 50, false⟩,
      .note ⟨'g', 0, none⟩, .voice 0]) 2]

theorem parts_independent_strings :
    Reachable strings ∧ strings.current = [⟨0⟩, ⟨1⟩] ∧ Form.LocalAll riff ∧
      ∃ d', strings.evaluate .musicData riff = .ok d' ∧
        ∃ s, (strings.only ⟨1⟩).evaluate .musicData riff = .ok s ∧
          s.parts[1]? = d'.parts[1]? ∧ d'.events.size = 10 := by
  have selection : strings.current = [⟨0⟩, ⟨1⟩] := by
    decide +kernel
  have selected : strings.current ≠ [] := by
    rw [selection]
    exact List.cons_ne_nil _ _
  have isLocal : Form.LocalAll riff := by
    simp [riff, Form.LocalAll, Form.Local]
  obtain ⟨-, agrees⟩ := parts_independent reachable_strings selected isLocal
  have notes : (strings.evaluate .musicData riff).toOption.map (·.events.size) = some 10 := by
    decide +kernel
  cases done : strings.evaluate .musicData riff with
  | error e =>
      rw [done] at notes
      cases notes
  | ok d' =>
      rw [done] at notes
      obtain ⟨s, solo, p, alone, together⟩ := (agrees d' done).1 ⟨1⟩ (by rw [selection]; simp)
      refine ⟨reachable_strings, selection, isLocal, d', rfl, s, solo, ?_, Option.some.inj notes⟩
      rw [alone, together]

end Draft

end Songline
