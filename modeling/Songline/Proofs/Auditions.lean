import Songline.Proofs.Normalizing
import Songline.Proofs.TurnCourse

set_option autoImplicit false

namespace Songline

namespace Event

variable {events moved : List Event}

/-- The events of a list, all moved by where the first of them starts, and none of them short of
the way. -/
structure MovedToStart (events moved : List Event) : Prop where
  length : moved.length = events.length
  /-- Nothing but the place of an event is another. -/
  others : ∀ (i : Nat) (e : Event), events[i]? = some e →
    ∃ place, moved[i]? = some (e.movedTo place)
  /-- The whole way, as a number. -/
  way : ∀ (first : Offset), StartAt events first → ∀ (i : Nat) (e m : Event),
    events[i]? = some e → moved[i]? = some m →
      m.offset.micros.toNat + first.micros.toNat = e.offset.micros.toNat
  starts : events ≠ [] → StartAt moved .zero
  distances : ∀ (i j : Nat) (e f m n : Event), events[i]? = some e → events[j]? = some f →
    moved[i]? = some m → moved[j]? = some n →
      (m.offset.micros.toNat : Int) - n.offset.micros.toNat =
        e.offset.micros.toNat - f.offset.micros.toNat

/-- An event of the list is moved by the whole way. -/
theorem StartAt.way {first : Offset} (starts : StartAt events first) {i : Nat} {e m : Event}
    (here : events[i]? = some e) (there : (Event.normalize events)[i]? = some m) :
    m.offset.micros.toNat + first.micros.toNat = e.offset.micros.toNat := by
  rw [starts.getElem?_normalize, here] at there
  have place : m.offset = e.offset - first := by
    rw [← Option.some.inj there]
    rfl
  have difference := Offset.toNat_sub e.offset first
  have least := starts.least e (List.mem_of_getElem? here)
  rw [place]
  omega

theorem movedToStart_normalize (events : List Event) : MovedToStart events (normalize events) := by
  have first_of : ∀ {i : Nat} {e : Event}, events[i]? = some e → ∃ first, StartAt events first :=
    fun here => exists_startAt (List.ne_nil_of_mem (List.mem_of_getElem? here))
  refine ⟨length_normalize events, ?_, ?_, ?_, ?_⟩
  · intro i e here
    obtain ⟨first, starts⟩ := first_of here
    refine ⟨e.offset - first, ?_⟩
    rw [starts.getElem?_normalize, here]
    rfl
  · intro first starts i e m here there
    exact starts.way here there
  · intro some
    obtain ⟨first, starts⟩ := exists_startAt some
    exact starts.startAt_zero
  · intro i j e f m n hereE hereF thereM thereN
    obtain ⟨first, starts⟩ := first_of hereE
    have wayM := starts.way hereE thereM
    have wayN := starts.way hereF thereN
    omega

/-- The parts in which something is heard are those in which something was added. -/
theorem exists_part_normalize (events : List Event) (id : PartId) :
    (∃ m ∈ normalize events, m.part = id) ↔ ∃ e ∈ events, e.part = id := by
  by_cases none : events = []
  · rw [none, normalize_nil]
  · obtain ⟨first, starts⟩ := exists_startAt none
    rw [starts.normalize]
    simp only [List.mem_map, exists_exists_and_eq_and]
    rfl

end Event

/-- The players of a playback are those of the score, for the parts that occur. -/
theorem Playback.getElem?_parts (events : List Event) (score : Score) (id : PartId) :
    (Playback.ofEvents events score).parts[id]? =
      if ∃ e ∈ events, e.part = id then score.parts[id]? else none := by
  rw [ofEvents, Std.ExtTreeMap.getElem?_filter']
  by_cases occurs : ∃ e ∈ events, e.part = id
  · have found : events.any (·.part = id) = true := by
      simpa only [List.any_eq_true, decide_eq_true_eq] using occurs
    rw [if_pos occurs, found]
    cases score.parts[id]? <;> rfl
  · have missed : events.any (·.part = id) = false := by
      simpa only [List.any_eq_false, decide_eq_true_eq, not_exists, not_and] using occurs
    rw [if_neg occurs, missed]
    cases score.parts[id]? <;> rfl

namespace Draft

/-- Every event of a score has its player there. -/
theorem Ordered.player_isSome {d : Draft} (ordered : Ordered d) {e : Event}
    (member : e ∈ d.snapshot.events) : (d.snapshot.parts[e.part]?).isSome := by
  have inside := (ordered.events e member).1
  rw [ordered.getElem?_snapshot, List.getElem?_eq_getElem inside]
  rfl

end Draft

namespace Session

/-- What a line says it added is what the score has more after it. -/
theorem added_of_evaluateLine {s t : Session} {line : String} {evaluated : Evaluated}
    (done : s.evaluateLine line = (.ok (some evaluated), t)) :
    evaluated.added = s.snapshot.added t.snapshot := by
  obtain ⟨answer, after, ends, outcome⟩ := exists_outcome s line
  rw [done] at ends
  cases ends
  cases outcome
  rfl

/-- All that a score has over another has its players in it. -/
theorem Tallied.covered {s : Session} {lists : List (List Event)} (tallied : Tallied s lists)
    (older : Score) :
    let playback := Playback.ofEvents (Event.normalize (older.added s.snapshot)) s.snapshot
    ∀ e ∈ playback.events, (playback.parts[e.part]?).isSome := by
  intro playback e member
  obtain ⟨e', member', same⟩ := (Event.exists_part_normalize _ e.part).mp ⟨e, member, rfl⟩
  have inside : e' ∈ s.draft.snapshot.events := by
    rw [← tallied.coherent]
    exact (Score.mem_added.mp member').1
  rw [Playback.getElem?_parts, if_pos ⟨e, member, rfl⟩, ← same, tallied.coherent]
  exact tallied.reached.ordered.player_isSome inside

/-- What a turn hands over is what it added, moved to the start. -/
theorem turn_audition {World : Type} {s : Session} {sink : Sink World}
    {options : Playback.Options} {line : String} {w : World} {turn : Turn}
    (carried : (s.turn sink options line w).1 = .ok (some turn)) :
    let t := (s.evaluateLine line).2
    turn.added = s.snapshot.added t.snapshot ∧
      turn.playback = .ofEvents (Event.normalize turn.added) t.snapshot := by
  intro t
  obtain ⟨stage, calls, answer, u, after, course⟩ := exists_course s sink options line w
  rw [course.turn] at carried
  cases course with
  | skipped silent => cases carried
  | unread loud unread => cases carried
  | refused loud read refused => cases carried
  | @evaluated _ _ _ _ result _ evaluated history plays =>
      have here : t = u := congrArg Prod.snd evaluated
      rw [here]
      cases result with
      | error e => cases carried
      | ok done =>
          cases carried
          exact ⟨added_of_evaluateLine evaluated, rfl⟩

/-- What is heard of the events that one score has over another is these events, moved to the start
and as strictly in order as they were, with the players of the parts that occur. Moving them again
changes nothing, it makes no difference where on the timeline they were, and in another order they
are moved in that order. After every run of a session, whatever a turn adds is handed over so, and
has its player, who is found by the number of the part: there are no more than `2 ^ 32` of those. -/
theorem auditions {World : Type} (ops : List (Operation World)) (w : World) :
    (∀ older newer : Score, let added := older.added newer
      let playback := Playback.ofEvents (Event.normalize added) newer
      Event.MovedToStart added playback.events ∧ playback.events.Pairwise (compare · · = .lt) ∧
        ∀ id, playback.parts[id]? =
          if ∃ e ∈ added, e.part = id then newer.parts[id]? else none) ∧
      (∀ events, Event.normalize (Event.normalize events) = Event.normalize events ∧
        (∀ σ, Event.normalize (Event.reordered σ events rfl) =
          Event.reordered σ (Event.normalize events) (Event.length_normalize events)) ∧
        ∀ d, (∀ e ∈ events, e.offset.HasRoom d) →
          Event.normalize (events.map (Event.later d)) = Event.normalize events) ∧
      let s := (fresh.operateAll w ops).1
      (∀ older : Score, let playback :=
          Playback.ofEvents (Event.normalize (older.added s.snapshot)) s.snapshot
        ∀ e ∈ playback.events, (playback.parts[e.part]?).isSome) ∧
        ∀ (sink : Sink World) options line w turn,
          (s.turn sink options line w).1 = .ok (some turn) → let t := (s.evaluateLine line).2
            turn.added = s.snapshot.added t.snapshot ∧
              turn.playback = .ofEvents (Event.normalize turn.added) t.snapshot ∧
              ∀ e ∈ turn.playback.events, (turn.playback.parts[e.part]?).isSome := by
  refine ⟨?_, ?_, ?_⟩
  · intro older newer added playback
    refine ⟨Event.movedToStart_normalize added,
      Event.pairwise_normalize (Score.pairwise_added older newer), fun id => ?_⟩
    simp only [playback, Playback.getElem?_parts, Event.exists_part_normalize]
  · intro events
    exact ⟨Event.normalize_normalize events, fun σ => Event.normalize_reordered events σ,
      fun d room => Event.normalize_later room⟩
  · intro s
    have tallied : Tallied s _ := tallied_fresh.run ops w
    refine ⟨fun older => tallied.covered older, ?_⟩
    intro sink options line w turn carried t
    obtain ⟨added, playback⟩ := turn_audition carried
    refine ⟨added, playback, ?_⟩
    rw [playback, added]
    exact (tallied.evaluateLine line).covered s.snapshot

/-- The places of the events that a turn adds and hands over. -/
def places (t : Turn) : List (UInt64 × UInt64) :=
  t.added.zipWith (fun e m => (e.offset.millis, m.offset.millis)) t.playback.events

/-- A turn that goes on where a chord has ended, after lines that failed. -/
theorem auditions_chorus :
    let s := (fresh.operateAll () chorus).1
    ∃ turn, (s.turn hearing .silent "piano: c/e g" ()).1 = .ok (some turn) ∧
      places turn = [(1000, 0), (1000, 0), (1500, 500)] ∧
      turn.playback = .ofEvents (Event.normalize turn.added)
        (s.evaluateLine "piano: c/e g").2.snapshot ∧
      ∀ e ∈ turn.playback.events, (turn.playback.parts[e.part]?).isSome := by
  intro s
  obtain ⟨-, -, -, turns⟩ := auditions chorus ()
  have heard : ((s.turn hearing .silent "piano: c/e g" ()).1.toOption.join).map places =
      some [(1000, 0), (1000, 0), (1500, 500)] := by
    decide +kernel
  rcases answer : (s.turn hearing .silent "piano: c/e g" ()).1 with e | (_ | turn)
  · rw [answer] at heard
    cases heard
  · rw [answer] at heard
    cases heard
  · rw [answer] at heard
    obtain ⟨-, moved, covered⟩ := turns hearing .silent "piano: c/e g" () turn answer
    exact ⟨turn, rfl, Option.some.inj heard, moved, covered⟩

end Session

end Songline
