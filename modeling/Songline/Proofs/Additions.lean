import Mathlib.Data.List.Basic
import Songline.Proofs.AddedEvents
import Songline.Proofs.DraftOrder
import Songline.Proofs.Replay

set_option autoImplicit false

namespace Songline

namespace Score

/-- Added events are listed in their order. -/
theorem pairwise_added (older newer : Score) :
    (older.added newer).Pairwise (compare · · = .lt) :=
  Std.ExtTreeSet.ordered_toList.filter _

/-- The newer score has the events of the older, and its players under their numbers. -/
structure Extends (older newer : Score) : Prop where
  events : ∀ e ∈ older.events, e ∈ newer.events
  players : ∀ (id : PartId) (player : Player), older.parts[id]? = some player →
    newer.parts[id]? = some player

theorem Extends.refl (s : Score) : Extends s s := ⟨fun _ member => member, fun _ _ found => found⟩

end Score

namespace Draft

/-- The players of a draft are in its score, under the numbers of their parts. -/
theorem Ordered.getElem?_snapshot {d : Draft} (ordered : Ordered d) (id : PartId) :
    d.snapshot.parts[id]? = d.parts[id.index]?.map (·.player) := by
  cases here : d.parts[id.index]? with
  | some p =>
      have number : p.id = id := ordered.numbered id.index p here
      have listed : (p.id, p.player) ∈ d.parts.map fun p => (p.id, p.player) :=
        List.mem_map_of_mem (List.mem_of_getElem? here)
      -- a part stands at the place of its number, so no two have the same
      have distinct : (d.parts.map fun p => (p.id, p.player)).Pairwise
          fun a b => ¬compare a.1 b.1 = .eq := by
        rw [List.pairwise_map, List.pairwise_iff_getElem]
        intro i j insideI insideJ before same
        have first := ordered.numbered i _ (List.getElem?_eq_getElem insideI)
        have second := ordered.numbered j _ (List.getElem?_eq_getElem insideJ)
        rw [first, second] at same
        have equal : i = j := congrArg PartId.index (Std.LawfulEqOrd.eq_of_compare same)
        omega
      have own : compare p.id id = .eq := Std.LawfulEqOrd.compare_eq_iff_eq.mpr number
      exact Std.ExtTreeMap.getElem?_ofList_of_mem own distinct listed
  | none =>
      apply Std.ExtTreeMap.getElem?_ofList_of_contains_eq_false
      rw [List.contains_eq_mem, decide_eq_false_iff_not]
      intro listed
      simp only [List.map_map, List.mem_map, Function.comp_apply] at listed
      obtain ⟨p, member, number⟩ := listed
      obtain ⟨i, there⟩ := List.getElem?_of_mem member
      rw [← number, ordered.numbered i p there, there] at here
      cases here

/-- A line only adds to the score. -/
theorem Reachable.extends {d d' : Draft} (reached : Reachable d) {entry : Entry}
    {forms : List Form} (done : d.evaluate entry forms = .ok d') :
    d.snapshot.Extends d'.snapshot := by
  have grown := grows_evaluate done
  refine ⟨grown.events, ?_⟩
  intro id player found
  rw [reached.ordered.getElem?_snapshot] at found
  obtain ⟨p, here, rfl⟩ := Option.map_eq_some_iff.mp found
  obtain ⟨q, there, same⟩ := grown.part here
  rw [(reached.evaluate done).ordered.getElem?_snapshot, there]
  exact congrArg some (congrArg Prod.snd same)

end Draft

namespace Session

def addedBy (s : Session) (line : String) : Option (List Event) :=
  match (s.evaluateLine line).1 with
  | .ok (some evaluated) => some evaluated.added
  | _ => none

/-- What a turn says it added is what its line adds. -/
theorem addedBy_of_turn {World : Type} {s : Session} {sink : Sink World}
    {options : Playback.Options} {line : String} {w : World} {turn : Turn}
    (carried : (s.turn sink options line w).1 = .ok (some turn)) :
    s.addedBy line = some turn.added := by
  unfold Session.turn at carried
  split at carried
  · cases carried
  · cases carried
  · rename_i entry added t evaluated
    split at carried
    · cases carried
      rw [addedBy, evaluated]
    · cases carried

/-- The score of a session is that of its draft, and it is made up of lists without a common event.
-/
structure Tallied (s : Session) (lists : List (List Event)) : Prop where
  reached : s.draft.Reachable
  coherent : s.snapshot = s.draft.snapshot
  increasing : ∀ events ∈ lists, events.Pairwise (compare · · = .lt)
  apart : lists.Pairwise List.Disjoint
  complete : ∀ e, e ∈ s.snapshot.events ↔ ∃ events ∈ lists, e ∈ events

theorem tallied_fresh : Tallied fresh [] where
  reached := .empty
  coherent := rfl
  increasing := fun _ member => absurd member List.not_mem_nil
  apart := .nil
  complete e := by
    constructor
    · exact fun member => absurd member Std.ExtTreeSet.not_mem_empty
    · rintro ⟨events, member, -⟩
      exact absurd member List.not_mem_nil

namespace Tallied

variable {s : Session} {lists : List (List Event)}

/-- An evaluated line makes a new list, of the events that are in none of the others. -/
theorem added (before : Tallied s lists) {entry : Entry} {forms : List Form} {draft : Draft}
    (evaluated : s.draft.evaluate entry forms = .ok draft) (history : List String) :
    Tallied ⟨entry, draft, draft.snapshot, history⟩
      (lists ++ [s.snapshot.added draft.snapshot]) := by
  have grown : ∀ e ∈ s.snapshot.events, e ∈ draft.snapshot.events := by
    rw [before.coherent]
    exact (Draft.grows_evaluate evaluated).events
  refine ⟨before.reached.evaluate evaluated, rfl, ?_, ?_, ?_⟩
  · intro events member
    rcases List.mem_append.mp member with earlier | last
    · exact before.increasing events earlier
    · rw [List.mem_singleton.mp last]
      exact Score.pairwise_added s.snapshot draft.snapshot
  · rw [List.pairwise_append]
    refine ⟨before.apart, List.pairwise_singleton _ _, ?_⟩
    intro events earlier last member e inside new
    rw [List.mem_singleton.mp member] at new
    exact (Score.mem_added.mp new).2 ((before.complete e).mpr ⟨events, earlier, inside⟩)
  · intro e
    constructor
    · intro member
      by_cases old : e ∈ s.snapshot.events
      · obtain ⟨events, earlier, inside⟩ := (before.complete e).mp old
        exact ⟨events, List.mem_append_left _ earlier, inside⟩
      · have new : e ∈ s.snapshot.added draft.snapshot := Score.mem_added.mpr ⟨member, old⟩
        exact ⟨_, List.mem_append_right _ List.mem_cons_self, new⟩
    · rintro ⟨events, member, inside⟩
      rcases List.mem_append.mp member with earlier | last
      · exact grown e ((before.complete e).mpr ⟨events, earlier, inside⟩)
      · rw [List.mem_singleton.mp last] at inside
        exact (Score.mem_added.mp inside).1

theorem evaluateLine (before : Tallied s lists) (line : String) :
    Tallied (s.evaluateLine line).2 (lists ++ (s.addedBy line).toList) := by
  obtain ⟨answer, after, ends, outcome⟩ := exists_outcome s line
  rw [addedBy, ends]
  cases outcome with
  | silent silent =>
      rw [Option.toList_none, List.append_nil]
      exact before
  | unread loud unread =>
      rw [Option.toList_none, List.append_nil]
      exact before
  | refused loud read refused =>
      rw [Option.toList_none, List.append_nil]
      exact { before with }
  | added loud read evaluated => exact before.added evaluated _

theorem extends_evaluateLine (before : Tallied s lists) (line : String) :
    s.snapshot.Extends (s.evaluateLine line).2.snapshot := by
  obtain ⟨answer, after, ends, outcome⟩ := exists_outcome s line
  rw [ends]
  cases outcome with
  | silent silent => exact Score.Extends.refl s.snapshot
  | unread loud unread => exact Score.Extends.refl s.snapshot
  | refused loud read refused => exact Score.Extends.refl s.snapshot
  | added loud read evaluated =>
      rw [before.coherent]
      exact before.reached.extends evaluated

end Tallied

variable {World : Type}

/-- Lists of added events after a run, where the lists before it are given: one more for every line
that is evaluated, and none at a fresh start. -/
def additions (s : Session) (w : World) (lists : List (List Event)) :
    List (Operation World) → List (List Event)
  | [] => lists
  | op :: ops =>
    let next :=
      match op.line? with
      | some line => lists ++ (s.addedBy line).toList
      | none => []
    (s.operate w op).1.additions (s.operate w op).2 next ops

theorem Tallied.run (ops : List (Operation World)) {s : Session}
    {lists : List (List Event)} (before : Tallied s lists) (w : World) :
    Tallied (s.operateAll w ops).1 (s.additions w lists ops) := by
  induction ops generalizing s w lists with
  | nil => exact before
  | cons op ops ih =>
      simp only [operateAll, additions]
      apply ih
      rw [operate_session]
      cases op.line? with
      | some line => exact before.evaluateLine line
      | none => exact tallied_fresh

/-- Whatever lines a session is given, and wherever they fail, the lists of what they added are in
order, no event is in two of them, and all together they are the score. The next line, too, adds to
the score only, and it adds the same when it is carried out as a turn. -/
theorem added_once (ops : List (Operation World)) (w : World) :
    let s := (fresh.operateAll w ops).1
    Tallied s (fresh.additions w [] ops) ∧
      ∀ line, let t := (s.evaluateLine line).2
        t.snapshot = t.draft.snapshot ∧ s.snapshot.Extends t.snapshot ∧
          ∀ (sink : Sink World) options w, (s.turn sink options line w).2.1 = t ∧
            ∀ turn, (s.turn sink options line w).1 = .ok (some turn) →
              s.addedBy line = some turn.added := by
  intro s
  have tallied : Tallied s (fresh.additions w [] ops) := tallied_fresh.run ops w
  refine ⟨tallied, ?_⟩
  intro line t
  refine ⟨(tallied.evaluateLine line).coherent, tallied.extends_evaluateLine line, ?_⟩
  intro sink options w
  exact ⟨turn_session s sink options line w, fun turn carried => addedBy_of_turn carried⟩

def hearing : Sink Unit := ⟨fun _ w => (.ok (), w), fun _ _ w => (.ok (), w)⟩

/-- Two voices that sound one note together, a line that cannot be read, one that cannot be
evaluated, and a chord that its sink has no room for. -/
def chorus : List (Operation Unit) :=
  [.turn hearing .silent "piano: V1: c V2: c V0:", .evaluate "piano: q", .evaluate "e (vol 300)",
    .turn refusing .silent "e/g"]

theorem added_once_chorus :
    let s := (fresh.operateAll () chorus).1
    (fresh.additions () [] chorus).map List.length = [1, 2] ∧ s.snapshot.events.size = 3 ∧
      Tallied s (fresh.additions () [] chorus) ∧
      ∃ turn, (s.turn hearing .silent "violin: c" ()).1 = .ok (some turn) ∧
        s.addedBy "violin: c" = some turn.added := by
  intro s
  obtain ⟨tallied, next⟩ := added_once chorus ()
  obtain ⟨-, -, carriedOut⟩ := next "violin: c"
  obtain ⟨-, same⟩ := carriedOut hearing .silent ()
  have counts : (fresh.additions () [] chorus).map List.length = [1, 2] := by
    decide +kernel
  have notes : s.snapshot.events.size = 3 := by
    decide +kernel
  have heard : ((s.turn hearing .silent "violin: c" ()).1.toOption.join).isSome = true := by
    decide +kernel
  rcases answer : (s.turn hearing .silent "violin: c" ()).1 with e | (_ | turn)
  · rw [answer] at heard
    cases heard
  · rw [answer] at heard
    cases heard
  · exact ⟨counts, notes, tallied, turn, rfl, same turn answer⟩

end Session

end Songline
