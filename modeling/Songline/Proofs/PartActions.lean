import Songline.Proofs.DraftTables

set_option autoImplicit false

namespace Songline

theorem Part.run_append {p q : Part} {first second : List Action} {events : List Event}
    (done : p.run first = (.ok events, q)) :
    p.run (first ++ second) =
      match q.run second with
      | (.error e, r) => (.error e, r)
      | (.ok more, r) => (.ok (events ++ more), r) := by
  induction first generalizing p events with
  | nil =>
      cases done
      rw [List.nil_append]
      rcases q.run second with ⟨_ | more, r⟩ <;> rfl
  | cons a first ih =>
      rw [List.cons_append, run]
      rw [run] at done
      rcases acted : p.act a with ⟨_ | here, next⟩
      · rw [acted] at done
        cases done
      · rw [acted] at done
        rcases ran : next.run first with ⟨_ | later, last⟩
        · simp only [ran] at done
          cases done
        · simp only [ran] at done
          cases done
          simp only [ih ran]
          rcases q.run second with ⟨_ | more, r⟩
          · rfl
          · simp only [List.append_assoc]

theorem Part.run_singleton (p : Part) (a : Action) : p.run [a] = p.act a := by
  rw [run]
  rcases p.act a with ⟨_ | events, q⟩
  · rfl
  · simp only [run, List.append_nil]

namespace Draft

/-- Does actions in the selected parts, one after another. -/
def perform (d : Draft) : List Part.Action → Except ScoreError Draft
  | [] => .ok d
  | a :: rest =>
    match d.act a with
    | .error e => .error e
    | .ok d => d.perform rest

/-- What a part does when it alone carries out actions. -/
def Runs (d : Draft) (actions : List Part.Action) (id : PartId) (events : List Event) (q : Part) :
    Prop :=
  ∃ p, d.parts[id.index]? = some p ∧ p.run actions = (.ok events, q)

/-- A part that cannot carry out actions. -/
def Fails (d : Draft) (actions : List Part.Action) (id : PartId) : Prop :=
  ∃ p e q, d.parts[id.index]? = some p ∧ p.run actions = (.error e, q)

/-- The later draft is the earlier once some parts, each by itself, have carried out actions. -/
structure Played (d : Draft) (ids : List PartId) (actions : List Part.Action) (d' : Draft) :
    Prop where
  tables : SameTables d d'
  others : ∀ i, ⟨i⟩ ∉ ids → d'.parts[i]? = d.parts[i]?
  each : ∀ id ∈ ids, ∃ events q, d.Runs actions id events q ∧ d'.parts[id.index]? = some q
  events : ∀ e, e ∈ d'.events ↔
    e ∈ d.events ∨ ∃ id ∈ ids, ∃ events q, d.Runs actions id events q ∧ e ∈ events

theorem Runs.unique {d : Draft} {actions : List Part.Action} {id : PartId}
    {events others : List Event} {q r : Part} (first : d.Runs actions id events q)
    (second : d.Runs actions id others r) : events = others ∧ q = r := by
  obtain ⟨p, here, ran⟩ := first
  obtain ⟨p', there, ran'⟩ := second
  rw [here] at there
  cases there
  rw [ran] at ran'
  cases ran'
  exact ⟨rfl, rfl⟩

theorem Runs.congr {d d' : Draft} {actions : List Part.Action} {id : PartId} {events : List Event}
    {q : Part} (same : d'.parts[id.index]? = d.parts[id.index]?) :
    d'.Runs actions id events q ↔ d.Runs actions id events q := by
  rw [Runs, Runs, same]

theorem Runs.append {d d' : Draft} {first second : List Part.Action} {id : PartId}
    {events more : List Event} {q r : Part} (before : d.Runs first id events q)
    (there : d'.parts[id.index]? = some q) (after : d'.Runs second id more r) :
    d.Runs (first ++ second) id (events ++ more) r := by
  obtain ⟨p, here, ran⟩ := before
  obtain ⟨p', found, ranNext⟩ := after
  rw [there] at found
  cases found
  refine ⟨p, here, ?_⟩
  rw [Part.run_append ran, ranNext]

theorem Runs.not_fails {d : Draft} {actions : List Part.Action} {id : PartId}
    {events : List Event} {q : Part} (runs : d.Runs actions id events q) :
    ¬ d.Fails actions id := by
  rintro ⟨p, e, r, there, failed⟩
  obtain ⟨p', here, ran⟩ := runs
  rw [here] at there
  cases there
  rw [ran] at failed
  cases failed

/-- One after another, the parts carry out more actions. -/
theorem Played.append {d m d' : Draft} {ids : List PartId} {first second : List Part.Action}
    (before : Played d ids first m) (after : Played m ids second d') :
    Played d ids (first ++ second) d' where
  tables := before.tables.trans after.tables
  others i outside := (after.others i outside).trans (before.others i outside)
  each id member := by
    obtain ⟨events, q, ran, there⟩ := before.each id member
    obtain ⟨more, r, ranNext, last⟩ := after.each id member
    exact ⟨events ++ more, r, ran.append there ranNext, last⟩
  events e := by
    rw [after.events, before.events]
    constructor
    · rintro ((old | ⟨id, member, events, q, ran, laid⟩) | ⟨id, member, more, r, ranNext, laid⟩)
      · exact Or.inl old
      · obtain ⟨events', q', ran', there⟩ := before.each id member
        obtain ⟨rfl, rfl⟩ := ran.unique ran'
        obtain ⟨more, r, ranNext, -⟩ := after.each id member
        exact Or.inr ⟨id, member, _, r, ran.append there ranNext, List.mem_append_left _ laid⟩
      · obtain ⟨events, q, ran, there⟩ := before.each id member
        exact Or.inr ⟨id, member, _, r, ran.append there ranNext, List.mem_append_right _ laid⟩
    · rintro (old | ⟨id, member, all, r, ranAll, laid⟩)
      · exact Or.inl (Or.inl old)
      · obtain ⟨events, q, ran, there⟩ := before.each id member
        obtain ⟨more, r', ranNext, -⟩ := after.each id member
        obtain ⟨rfl, rfl⟩ := ranAll.unique (ran.append there ranNext)
        rcases List.mem_append.mp laid with here | later
        · exact Or.inl (Or.inr ⟨id, member, events, q, ran, here⟩)
        · exact Or.inr ⟨id, member, more, r, ranNext, later⟩

theorem Played.untouched {d m : Draft} {id : PartId} {ids : List PartId}
    {actions : List Part.Action} (played : Played d [id] actions m) (apart : id ∉ ids) :
    ∀ other ∈ ids, m.parts[other.index]? = d.parts[other.index]? := by
  intro other member
  refine played.others other.index fun here => apart ?_
  rw [← List.mem_singleton.mp here]
  exact member

/-- A part and others that it is not among carry out the same actions. -/
theorem Played.cons {d m d' : Draft} {id : PartId} {ids : List PartId}
    {actions : List Part.Action} (apart : id ∉ ids) (before : Played d [id] actions m)
    (after : Played m ids actions d') : Played d (id :: ids) actions d' := by
  have untouched := before.untouched apart
  obtain ⟨events, q, ran, there⟩ := before.each id (List.mem_singleton.mpr rfl)
  have last : d'.parts[id.index]? = some q := (after.others id.index apart).trans there
  refine ⟨before.tables.trans after.tables, ?_, ?_, ?_⟩
  · intro i outside
    have one : (⟨i⟩ : PartId) ∉ [id] := fun here =>
      outside (List.mem_singleton.mp here ▸ List.mem_cons_self)
    have rest : (⟨i⟩ : PartId) ∉ ids := fun here => outside (List.mem_cons_of_mem _ here)
    exact (after.others i rest).trans (before.others i one)
  · intro other member
    rcases List.mem_cons.mp member with rfl | member
    · exact ⟨events, q, ran, last⟩
    · obtain ⟨more, r, ranOther, thereOther⟩ := after.each other member
      exact ⟨more, r, (Runs.congr (untouched other member)).mp ranOther, thereOther⟩
  · intro e
    rw [after.events, before.events]
    constructor
    · rintro ((old | ⟨one, member, laid⟩) | ⟨other, member, more, r, ranOther, laid⟩)
      · exact Or.inl old
      · rw [List.mem_singleton.mp member] at laid
        exact Or.inr ⟨id, List.mem_cons_self, laid⟩
      · exact Or.inr ⟨other, List.mem_cons_of_mem _ member, more, r,
          (Runs.congr (untouched other member)).mp ranOther, laid⟩
    · rintro (old | ⟨other, member, more, r, ranOther, laid⟩)
      · exact Or.inl (Or.inl old)
      · rcases List.mem_cons.mp member with rfl | member
        · exact Or.inl (Or.inr ⟨other, List.mem_singleton.mpr rfl, more, r, ranOther, laid⟩)
        · exact Or.inr ⟨other, member, more, r,
            (Runs.congr (untouched other member)).mpr ranOther, laid⟩

/-- A part that has carried out one action is what it was, or what the action makes of it. -/
theorem Played.part {d d' : Draft} {ids : List PartId} {a : Part.Action}
    (played : Played d ids [a] d') {i : Nat} {q : Part} (here : d'.parts[i]? = some q) :
    d.parts[i]? = some q ∨
      ⟨i⟩ ∈ ids ∧ ∃ p events, d.parts[i]? = some p ∧ p.act a = (.ok events, q) := by
  by_cases chosen : (⟨i⟩ : PartId) ∈ ids
  · obtain ⟨events, q', ⟨p, there, ran⟩, after⟩ := played.each ⟨i⟩ chosen
    rw [here] at after
    cases after
    rw [Part.run_singleton] at ran
    exact Or.inr ⟨chosen, p, events, there, ran⟩
  · rw [played.others i chosen] at here
    exact Or.inl here

theorem actIn_cases (d : Draft) (a : Part.Action) (id : PartId)
    (named : id.index < d.parts.length) :
    (∃ d', d.actIn a id = .ok d' ∧ Played d [id] [a] d') ∨
      (∃ e, d.actIn a id = .error e) ∧ d.Fails [a] id := by
  have here : d.parts[id.index]? = some d.parts[id.index] := List.getElem?_eq_getElem named
  rcases acted : d.parts[id.index].act a with ⟨e | events, q⟩
  · refine Or.inr ⟨⟨e, ?_⟩, d.parts[id.index], e, q, here, ?_⟩
    · simp only [actIn, here, acted]
    · simp only [Part.run, acted]
  · have ran : d.Runs [a] id events q := by
      refine ⟨d.parts[id.index], here, ?_⟩
      simp only [Part.run, acted, List.append_nil]
    let after : Draft :=
      { d with parts := d.parts.set id.index q, events := d.events.insertMany events }
    have done : d.actIn a id = .ok after := by simp only [actIn, here, acted, after]
    refine Or.inl ⟨after, done, ⟨rfl, rfl, rfl, rfl⟩, ?_, ?_, ?_⟩
    · intro i outside
      have other : id.index ≠ i := fun same =>
        outside (List.mem_singleton.mpr (PartId.ext same.symm))
      exact List.getElem?_set_ne other
    · intro one member
      rw [List.mem_singleton.mp member]
      exact ⟨events, q, ran, List.getElem?_set_self named⟩
    · intro e
      have inserted : e ∈ after.events ↔ e ∈ d.events ∨ e ∈ events :=
        Std.ExtTreeSet.mem_insertMany_list.trans (or_congr_right List.contains_iff_mem)
      rw [inserted]
      refine or_congr_right ⟨fun laid => ?_, ?_⟩
      · exact ⟨id, List.mem_singleton.mpr rfl, events, q, ran, laid⟩
      · rintro ⟨one, member, others, r, ranOne, laid⟩
        rw [List.mem_singleton.mp member] at ranOne
        obtain ⟨rfl, rfl⟩ := ran.unique ranOne
        exact laid

theorem foldlM_actIn_cases (a : Part.Action) (ids : List PartId) (d : Draft)
    (named : ∀ id ∈ ids, id.index < d.parts.length) (once : ids.Nodup) :
    (∃ d', ids.foldlM (fun d => d.actIn a) d = .ok d' ∧ Played d ids [a] d') ∨
      (∃ e, ids.foldlM (fun d => d.actIn a) d = .error e) ∧ ∃ id ∈ ids, d.Fails [a] id := by
  induction ids generalizing d with
  | nil =>
      refine Or.inl ⟨d, rfl, SameTables.refl d, fun _ _ => rfl, ?_, ?_⟩
      · exact fun id member => absurd member List.not_mem_nil
      · simp only [List.not_mem_nil, false_and, exists_false, or_false, implies_true]
  | cons id ids ih =>
      obtain ⟨apart, onceRest⟩ := List.nodup_cons.mp once
      rw [List.foldlM_cons]
      rcases d.actIn_cases a id (named id List.mem_cons_self) with
        ⟨next, done, played⟩ | ⟨⟨e, failed⟩, fails⟩
      · rw [done]
        -- the first part is not among the others, so they are still where they were
        have untouched := played.untouched apart
        have namedRest : ∀ other ∈ ids, other.index < next.parts.length := by
          intro other member
          have known := named other (List.mem_cons_of_mem _ member)
          have found := (untouched other member).trans (List.getElem?_eq_getElem known)
          exact (List.getElem?_eq_some_iff.mp found).1
        rcases ih next namedRest onceRest with
          ⟨last, doneRest, playedRest⟩ | ⟨failed, other, member, p, e, q, found, ran⟩
        · exact Or.inl ⟨last, doneRest, played.cons apart playedRest⟩
        · refine Or.inr ⟨failed, other, List.mem_cons_of_mem _ member, p, e, q, ?_, ran⟩
          rw [← untouched other member]
          exact found
      · rw [failed]
        exact Or.inr ⟨⟨e, rfl⟩, id, List.mem_cons_self, fails⟩

theorem act_cases (d : Draft) (a : Part.Action) (filed : Filed d) (selected : d.current ≠ []) :
    (∃ d', d.act a = .ok d' ∧ Played d d.current [a] d') ∨
      (∃ e, d.act a = .error e) ∧ ∃ id ∈ d.current, d.Fails [a] id := by
  have each : d.act a = d.current.foldlM (fun d => d.actIn a) d := by
    simp only [act, List.isEmpty_iff, selected, ↓reduceIte]
  rw [each]
  exact foldlM_actIn_cases a d.current d filed.current filed.once

theorem played_of_act {d d' : Draft} {a : Part.Action} (filed : Filed d)
    (done : d.act a = .ok d') : Played d d.current [a] d' := by
  have selected : d.current ≠ [] := by
    intro none
    simp only [act, none, List.isEmpty_nil, ↓reduceIte] at done
    cases done
  rcases d.act_cases a filed selected with ⟨after, same, played⟩ | ⟨⟨e, failed⟩, -⟩
  · rw [done] at same
    cases same
    exact played
  · rw [done] at failed
    cases failed

/-- Actions in the selected parts succeed as they do in each part alone, or fail as they do in
one. -/
theorem perform_cases (d : Draft) (actions : List Part.Action) (filed : Filed d)
    (selected : d.current ≠ []) :
    (∃ d', d.perform actions = .ok d' ∧ Played d d.current actions d') ∨
      (∃ e, d.perform actions = .error e) ∧ ∃ id ∈ d.current, d.Fails actions id := by
  induction actions generalizing d with
  | nil =>
      refine Or.inl ⟨d, rfl, SameTables.refl d, fun _ _ => rfl, ?_, ?_⟩
      · intro id member
        have here := List.getElem?_eq_getElem (filed.current id member)
        exact ⟨[], _, ⟨_, here, rfl⟩, here⟩
      · refine fun e => ⟨Or.inl, fun either => either.elim (fun old => old) ?_⟩
        rintro ⟨id, member, events, q, ⟨p, here, ran⟩, laid⟩
        cases ran
        exact absurd laid List.not_mem_nil
  | cons a rest ih =>
      rw [perform]
      rcases d.act_cases a filed selected with
        ⟨next, done, played⟩ | ⟨⟨e, failed⟩, id, member, p, e', q, here, ran⟩
      · rw [done]
        have current := (sameTables_act done).current
        have selectedNext : next.current ≠ [] := by
          rw [current]
          exact selected
        rcases ih next (filed_act filed done) selectedNext with
          ⟨last, doneRest, playedRest⟩ | ⟨failed, id, member, p, e, q, found, ran⟩
        · rw [current] at playedRest
          exact Or.inl ⟨last, doneRest, played.append playedRest⟩
        · rw [current] at member
          obtain ⟨events, after, ⟨first, here, began⟩, there⟩ := played.each id member
          rw [there] at found
          cases found
          refine Or.inr ⟨failed, id, member, first, e, q, here, ?_⟩
          have whole : first.run ([a] ++ rest) = _ := Part.run_append began
          rw [ran] at whole
          exact whole
      · rw [failed]
        refine Or.inr ⟨⟨e, rfl⟩, id, member, p, e', q, here, ?_⟩
        simp only [Part.run] at ran ⊢
        rcases acted : p.act a with ⟨e | events, after⟩
        · rw [acted] at ran
          exact ran
        · rw [acted] at ran
          cases ran

theorem perform_ok_iff (d : Draft) (actions : List Part.Action) (filed : Filed d)
    (selected : d.current ≠ []) :
    (∃ d', d.perform actions = .ok d') ↔ ∀ id ∈ d.current, ¬ d.Fails actions id := by
  rcases d.perform_cases actions filed selected with
    ⟨d', done, played⟩ | ⟨⟨e, failed⟩, id, member, fails⟩
  · refine ⟨fun _ id member => ?_, fun _ => ⟨d', done⟩⟩
    obtain ⟨events, q, runs, -⟩ := played.each id member
    exact runs.not_fails
  · rw [failed]
    refine ⟨?_, fun none => absurd fails (none id member)⟩
    rintro ⟨d', done⟩
    cases done

theorem played_of_perform {d d' : Draft} {actions : List Part.Action} (filed : Filed d)
    (selected : d.current ≠ []) (done : d.perform actions = .ok d') :
    Played d d.current actions d' := by
  rcases d.perform_cases actions filed selected with ⟨after, same, played⟩ | ⟨⟨e, failed⟩, -⟩
  · rw [done] at same
    cases same
    exact played
  · rw [done] at failed
    cases failed

end Draft

end Songline
