import Songline.Proofs.Normalizing
import Songline.Proofs.VoiceIndependence

set_option autoImplicit false

/- A part that is so much later on the timeline does the same so much later: its cursor, the opening
of its voices and all that are parked. The end of the timeline is the one place that it can notice.
So a phrase is heard in the same way wherever it is laid out. -/
namespace Songline

def Cursor.later (d : Offset) (c : Cursor) : Cursor := { c with offset := c.offset + d }

/-- The outcome of an operation, and that of the same operation so much later. There is room for all
places, so that none is cut off at the end of the timeline. -/
structure Delayed {σ : Type} (d : Offset) (later : σ → σ) (room : σ → Prop)
    (outcome delayed : Except ScoreError (List Event) × σ) : Prop where
  same : delayed = (outcome.1.map (List.map (Event.later d)), later outcome.2)
  room : room outcome.2
  events : ∀ laid, outcome.1 = .ok laid → ∀ e ∈ laid, e.offset.HasRoom d

namespace Cursor

variable {α : Type} {c : Cursor} {d : Offset}

/-- The outcome of an operation that does not move on, and that of the same operation so much later.
All that is laid out is where the cursor is and stays. -/
structure DelayedHere (c : Cursor) (d : Offset) (later : α → α) (events : α → List Event)
    (outcome delayed : Except ScoreError α × Cursor) : Prop where
  same : delayed = (outcome.1.map later, outcome.2.later d)
  stays : outcome.2.offset = c.offset
  events : ∀ a, outcome.1 = .ok a → ∀ e ∈ events a, e.offset = c.offset

namespace DelayedHere

variable {later : α → α} {events : α → List Event} {next : Cursor}

theorem failed {e : ScoreError} (stays : next.offset = c.offset) :
    DelayedHere c d later events (.error e, next) (.error e, next.later d) := by
  refine ⟨rfl, stays, fun a done => ?_⟩
  cases done

theorem done {a : α} (stays : next.offset = c.offset)
    (here : ∀ e ∈ events a, e.offset = c.offset) :
    DelayedHere c d later events (.ok a, next) (.ok (later a), next.later d) := by
  refine ⟨rfl, stays, fun b same => ?_⟩
  cases same
  exact here

end DelayedHere

theorem delayedHere_step (c : Cursor) (d : Offset) (length : Option Length) :
    DelayedHere c d (fun step => step) (fun _ => []) (c.step length) ((c.later d).step length) := by
  unfold step
  cases length with
  | none => exact .done rfl fun e here => absurd here List.not_mem_nil
  | some l =>
      simp only
      cases Beat.ofLength l with
      | error denominator => exact .failed rfl
      | ok beat => exact .done rfl fun e here => absurd here List.not_mem_nil

theorem delayedHere_sound (id : PartId) (c : Cursor) (d : Offset) (n : Note) :
    DelayedHere c d (Prod.map (Event.later d) fun step => step) (fun laid => [laid.1])
      (c.sound id n) ((c.later d).sound id n) := by
  obtain ⟨same, stays, -⟩ := delayedHere_step c d n.length
  unfold sound
  rw [same]
  generalize c.step n.length = outcome at stays ⊢
  rcases outcome with ⟨e | step, next⟩
  · exact .failed stays
  · have style : (next.later d).style = next.style := rfl
    simp only [Except.map, style]
    cases Pitch.midi? n.letter n.accidentals next.style.octave with
    | none => exact .failed stays
    | some pitch =>
        refine .done stays fun e here => ?_
        rw [List.mem_singleton.mp here]
        exact stays

theorem delayedHere_member (id : PartId) (c : Cursor) (d : Offset) (m : ChordMember) :
    DelayedHere c d (Prod.map (List.map (Event.later d)) fun step => step) Prod.fst
      (c.member id m) ((c.later d).member id m) := by
  cases m with
  | note n =>
      obtain ⟨same, stays, here⟩ := delayedHere_sound id c d n
      simp only [member]
      rw [same]
      generalize c.sound id n = outcome at stays here ⊢
      rcases outcome with ⟨e | ⟨e, step⟩, next⟩
      · exact .failed stays
      · exact .done stays (here _ rfl)
  | rest length =>
      obtain ⟨same, stays, -⟩ := delayedHere_step c d length
      simp only [member]
      rw [same]
      generalize c.step length = outcome at stays ⊢
      rcases outcome with ⟨e | step, next⟩
      · exact .failed stays
      · exact .done stays fun e here => absurd here List.not_mem_nil

theorem delayedHere_members (id : PartId) (ms : List ChordMember) (c : Cursor) (d : Offset)
    (shortest : Option Offset) :
    DelayedHere c d (Prod.map (List.map (Event.later d)) fun step => step) Prod.fst
      (c.members id shortest ms) ((c.later d).members id shortest ms) := by
  induction ms generalizing c shortest with
  | nil => exact .done rfl fun e here => absurd here List.not_mem_nil
  | cons m ms ih =>
      obtain ⟨same, stays, here⟩ := delayedHere_member id c d m
      simp only [members]
      rw [same]
      generalize c.member id m = outcome at stays here ⊢
      rcases outcome with ⟨e | ⟨events, step⟩, next⟩
      · exact .failed stays
      · obtain ⟨sameRest, staysRest, hereRest⟩ :=
          ih next (some ((shortest.map (·.min step)).getD step))
        simp only [Except.map, Prod.map]
        rw [sameRest]
        generalize next.members id _ ms = outcome at staysRest hereRest ⊢
        have staysLast := staysRest.trans stays
        rcases outcome with ⟨e | ⟨more, least⟩, last⟩
        · exact .failed staysLast
        · have all : ∀ e ∈ events ++ more, e.offset = c.offset := by
            intro e member
            rcases List.mem_append.mp member with early | late
            · exact here _ rfl e early
            · exact (hereRest _ rfl e late).trans stays
          simp only [Except.map, Prod.map, ← List.map_append]
          exact .done staysLast all

theorem delayed_advanceAfter {events : List Event} (step : Offset) (room : c.offset.HasRoom d)
    (here : ∀ e ∈ events, e.offset = c.offset)
    (fits : ((c.later d).advanceAfter (events.map (Event.later d)) step).1 ≠
      .error .timelineOverflow) :
    Delayed d (later d) (·.offset.HasRoom d) (c.advanceAfter events step)
      ((c.later d).advanceAfter (events.map (Event.later d)) step) := by
  unfold advanceAfter at fits ⊢
  by_cases onward : (c.later d).offset.HasRoom step
  · obtain ⟨comm, near, last⟩ := Offset.add_right_comm room onward
    rw [advance_eq, if_pos near, advance_eq, if_pos onward]
    refine ⟨?_, last, ?_⟩
    · simp only [Except.map, later, comm]
    · intro laid done e member
      cases done
      rw [here e member]
      exact room
  · rw [advance_eq, if_neg onward] at fits
    exact absurd rfl fits

theorem delayed_restyle (change : Except ScoreError Style) (room : c.offset.HasRoom d) :
    Delayed d (later d) (·.offset.HasRoom d) (c.restyle change) ((c.later d).restyle change) := by
  cases change with
  | error e =>
      refine ⟨rfl, room, fun laid done => ?_⟩
      cases done
  | ok style =>
      refine ⟨rfl, room, fun laid done e member => ?_⟩
      cases done
      exact absurd member List.not_mem_nil

/-- A move is the same so much later, unless it runs into the end of the timeline there. -/
theorem delayed_move (id : PartId) (m : Move) (room : c.offset.HasRoom d)
    (fits : ((c.later d).move id m).1 ≠ .error .timelineOverflow) :
    Delayed d (later d) (·.offset.HasRoom d) (c.move id m) ((c.later d).move id m) := by
  have failed : ∀ {e : ScoreError} {next : Cursor}, next.offset = c.offset →
      Delayed d (later d) (·.offset.HasRoom d) (.error e, next) (.error e, next.later d) := by
    intro e next stays
    refine ⟨rfl, stays ▸ room, fun laid done => ?_⟩
    cases done
  cases m with
  | note n =>
      obtain ⟨same, stays, here⟩ := delayedHere_sound id c d n
      simp only [move] at fits ⊢
      rw [same] at fits ⊢
      generalize c.sound id n = outcome at stays here fits ⊢
      rcases outcome with ⟨e | ⟨e, step⟩, next⟩
      · exact failed stays
      · have there := here _ rfl
        rw [← stays] at room there
        exact delayed_advanceAfter step room there fits
  | rest length =>
      obtain ⟨same, stays, -⟩ := delayedHere_step c d length
      simp only [move] at fits ⊢
      rw [same] at fits ⊢
      generalize c.step length = outcome at stays fits ⊢
      rcases outcome with ⟨e | step, next⟩
      · exact failed stays
      · rw [← stays] at room
        exact delayed_advanceAfter step room (fun e none => absurd none List.not_mem_nil) fits
  | chord ms =>
      obtain ⟨same, stays, here⟩ := delayedHere_members id ms c d none
      simp only [move] at fits ⊢
      rw [same] at fits ⊢
      generalize c.members id none ms = outcome at stays here fits ⊢
      rcases outcome with ⟨e | ⟨events, _ | step⟩, next⟩
      · exact failed stays
      · refine ⟨rfl, stays ▸ room, fun laid done e member => ?_⟩
        cases done
        rw [here _ rfl e member]
        exact room
      · have there := here _ rfl
        rw [← stays] at room there
        exact delayed_advanceAfter step room there fits
  | octave change => exact delayed_restyle _ room
  | set name value => exact delayed_restyle _ room

end Cursor

namespace VoiceGroup

def later (d : Offset) (g : VoiceGroup) : VoiceGroup :=
  { g with opening := g.opening.later d, parked := g.parked.map (Prod.map id (Cursor.later d)) }

theorem filter_later (d : Offset) (keep : UInt32 → Bool) (parked : List (UInt32 × Cursor)) :
    (parked.map (Prod.map id (Cursor.later d))).filter (fun entry => keep entry.1) =
      (parked.filter fun entry => keep entry.1).map (Prod.map id (Cursor.later d)) := by
  rw [List.filter_map]
  rfl

theorem lookup_later (d : Offset) (v : UInt32) (parked : List (UInt32 × Cursor)) :
    (parked.map (Prod.map id (Cursor.later d))).lookup v =
      (parked.lookup v).map (Cursor.later d) := by
  induction parked with
  | nil => rfl
  | cons entry parked ih =>
      obtain ⟨key, c⟩ := entry
      simp only [List.map_cons, Prod.map, id_eq, List.lookup_cons]
      cases v == key with
      | true => rfl
      | false => exact ih

theorem park_later (g : VoiceGroup) (c : Cursor) (d : Offset) :
    (g.later d).park (c.later d) = (g.park c).map (Prod.map id (Cursor.later d)) := by
  unfold park
  rw [List.map_cons]
  exact congrArg _ (filter_later d (· ≠ g.active) g.parked)

/-- Voices are switched in the same way so much later. -/
theorem switch_later (g : VoiceGroup) (c : Cursor) (d : Offset) (n : UInt32) :
    (g.later d).switch (c.later d) n = ((g.switch c n).1.later d, (g.switch c n).2.later d) := by
  simp only [switch, park_later, lookup_later]
  have kept := filter_later d (· ≠ n) (g.park c)
  refine Prod.ext ?_ ?_
  · cases (g.park c).lookup n <;> rfl
  · simp only [later]
    exact congrArg _ kept

end VoiceGroup

namespace Part

variable {p : Part} {d : Offset}

/-- The same part, so much later: its cursor, the opening of its voices, and all that are parked. -/
def later (d : Offset) (p : Part) : Part :=
  { p with cursor := p.cursor.later d, voices := p.voices.map (VoiceGroup.later d) }

/-- All places that a part keeps. -/
def places (p : Part) : List Offset :=
  p.cursor.offset ::
    match p.voices with
    | none => []
    | some g => g.opening.offset :: g.parked.map (·.2.offset)

/-- There is room to have the part so much later. -/
def HasRoom (p : Part) (d : Offset) : Prop := ∀ o ∈ p.places, o.HasRoom d

instance (p : Part) (d : Offset) : Decidable (p.HasRoom d) :=
  inferInstanceAs (Decidable (∀ o ∈ p.places, o.HasRoom d))

theorem HasRoom.cursor (room : p.HasRoom d) : p.cursor.offset.HasRoom d :=
  room _ List.mem_cons_self

theorem HasRoom.of_places {q : Part} (room : p.HasRoom d) (kept : ∀ o ∈ q.places, o ∈ p.places) :
    q.HasRoom d :=
  fun o member => room o (kept o member)

/-- A move takes the cursor to another place, and nothing else. -/
theorem HasRoom.moved (room : p.HasRoom d) {c : Cursor} (onward : c.offset.HasRoom d) :
    HasRoom { p with cursor := c } d := by
  intro o member
  rcases List.mem_cons.mp member with rfl | waiting
  · exact onward
  · exact room o (List.mem_cons_of_mem _ waiting)

theorem closeVoices_later (p : Part) (d : Offset) :
    (p.later d).closeVoices = p.closeVoices.later d := by
  cases voices : p.voices with
  | none => simp only [closeVoices, later, voices, Option.map_none]
  | some g =>
      simp only [closeVoices, later, voices, Option.map_some, Option.map_none, VoiceGroup.later,
        List.map_map, Cursor.later]
      have furthest := Offset.foldl_max_add (g.parked.map (·.2.offset)) p.cursor.offset d
      rw [List.map_map] at furthest
      simp only [← furthest]
      rfl

/-- A part that ends its voices is where one of them was. -/
theorem places_closeVoices (p : Part) : ∀ o ∈ p.closeVoices.places, o ∈ p.places := by
  intro o member
  cases voices : p.voices with
  | none =>
      simp only [closeVoices, voices] at member
      exact member
  | some g =>
      simp only [closeVoices, voices, places, List.mem_singleton] at member
      have reached :=
        (Offset.foldl_max_greatest (g.parked.map (·.2.offset)) p.cursor.offset).1
      rw [← member] at reached
      simp only [places, voices]
      rcases List.mem_cons.mp reached with rfl | parked
      · exact List.mem_cons_self
      · exact List.mem_cons_of_mem _ (List.mem_cons_of_mem _ parked)

theorem voice_later (p : Part) (d : Offset) (n : UInt32) :
    (p.later d).voice n = (p.voice n).later d := by
  unfold voice
  by_cases zero : n = 0
  · rw [if_pos zero, if_pos zero]
    exact closeVoices_later p d
  · rw [if_neg zero, if_neg zero]
    cases voices : p.voices with
    | none => simp only [later, voices, Option.map_none, Option.map_some, VoiceGroup.later,
        List.map_nil]
    | some g =>
        have active : (g.later d).active = g.active := rfl
        simp only [later, voices, Option.map_some, active]
        by_cases same : g.active = n
        · rw [if_pos same, if_pos same]
          simp only [voices, Option.map_some]
        · rw [if_neg same, if_neg same]
          simp only [VoiceGroup.switch_later, Option.map_some]

/-- Switching makes no new places. -/
theorem places_voice (p : Part) (n : UInt32) : ∀ o ∈ (p.voice n).places, o ∈ p.places := by
  unfold voice
  by_cases zero : n = 0
  · rw [if_pos zero]
    exact places_closeVoices p
  · rw [if_neg zero]
    cases voices : p.voices with
    | none =>
        -- the opening is where the part is
        intro o member
        have here : o = p.cursor.offset := by simpa [places] using member
        rw [here]
        exact List.mem_cons_self
    | some g =>
        by_cases same : g.active = n
        · simp only [if_pos same, imp_self, implies_true]
        · intro o member
          simp only [if_neg same, places, List.mem_cons, List.mem_map] at member
          simp only [places, voices, List.mem_cons, List.mem_map]
          rcases member with rfl | rfl | ⟨entry, kept, rfl⟩
          · rcases g.switch_cursor p.cursor n with ⟨entry, parked, there⟩ | opening
            · rw [there]
              rcases g.mem_park p.cursor entry parked with rfl | earlier
              · exact Or.inl rfl
              · exact Or.inr (Or.inr ⟨entry, earlier, rfl⟩)
            · rw [opening]
              exact Or.inr (Or.inl rfl)
          · exact Or.inr (Or.inl rfl)
          · rcases g.mem_park p.cursor entry (List.mem_filter.mp kept).1 with rfl | earlier
            · exact Or.inl rfl
            · exact Or.inr (Or.inr ⟨entry, earlier, rfl⟩)

theorem act_delayed (room : p.HasRoom d) (a : Action)
    (fits : ((p.later d).act a).1 ≠ .error .timelineOverflow) :
    Delayed d (later d) (·.HasRoom d) (p.act a) ((p.later d).act a) := by
  have silent : ∀ laid, (.ok [] : Except ScoreError (List Event)) = .ok laid →
      ∀ e ∈ laid, e.offset.HasRoom d := by
    intro laid done e member
    cases done
    exact absurd member List.not_mem_nil
  cases a with
  | move m =>
      obtain ⟨same, onward, events⟩ := Cursor.delayed_move p.id m room.cursor fits
      refine ⟨?_, room.moved onward, events⟩
      have identity : (p.later d).act (.move m) =
          (((p.later d).cursor.move p.id m).1,
            { p.later d with cursor := ((p.later d).cursor.move p.id m).2 }) := rfl
      have cursor : (p.later d).cursor = p.cursor.later d := rfl
      rw [identity, cursor, same]
      rfl
  | voice n =>
      refine ⟨?_, room.of_places (places_voice p n), silent⟩
      simp only [act, voice_later]
      rfl
  | closeVoices =>
      refine ⟨?_, room.of_places (places_closeVoices p), silent⟩
      simp only [act, closeVoices_later]
      rfl

/-- Acts whatever becomes of the actions before; gives the outcomes of all. -/
def outcomes (p : Part) : List Action → List (Except ScoreError (List Event)) × Part
  | [] => ([], p)
  | a :: rest =>
    let (result, q) := p.act a
    let (results, last) := q.outcomes rest
    (result :: results, last)

/-- The events of all actions that did not fail. -/
def laidOut (results : List (Except ScoreError (List Event))) : List Event :=
  results.flatMap fun result => result.toOption.getD []

/-- A run is the same so much later. -/
theorem run_delayed (actions : List Action) (room : p.HasRoom d)
    (fits : ((p.later d).run actions).1 ≠ .error .timelineOverflow) :
    Delayed d (later d) (·.HasRoom d) (p.run actions) ((p.later d).run actions) := by
  induction actions generalizing p with
  | nil =>
      refine ⟨rfl, room, fun laid done e member => ?_⟩
      cases done
      exact absurd member List.not_mem_nil
  | cons a rest ih =>
      -- the run would fail as its first action does
      have first : ((p.later d).act a).1 ≠ .error .timelineOverflow := by
        intro overflow
        refine fits ?_
        simp only [run]
        generalize (p.later d).act a = outcome at overflow ⊢
        rcases outcome with ⟨e | events, q⟩
        · exact overflow
        · cases overflow
      obtain ⟨same, roomNext, events⟩ := act_delayed room a first
      simp only [run] at fits ⊢
      rw [same] at fits ⊢
      generalize p.act a = outcome at roomNext events fits ⊢
      rcases outcome with ⟨e | laid, q⟩
      · exact ⟨rfl, roomNext, events⟩
      · simp only [Except.map] at fits ⊢
        have restFits : ((q.later d).run rest).1 ≠ .error .timelineOverflow := by
          intro overflow
          refine fits ?_
          generalize (q.later d).run rest = outcome at overflow ⊢
          rcases outcome with ⟨e | more, last⟩
          · exact overflow
          · cases overflow
        obtain ⟨sameRest, roomLast, eventsRest⟩ := ih roomNext restFits
        rw [sameRest]
        generalize q.run rest = outcome at roomLast eventsRest ⊢
        rcases outcome with ⟨e | more, last⟩
        · refine ⟨rfl, roomLast, fun laid done => ?_⟩
          cases done
        · refine ⟨?_, roomLast, fun all done e member => ?_⟩
          · simp only [Except.map, List.map_append]
          · cases done
            rcases List.mem_append.mp member with early | late
            · exact events _ rfl e early
            · exact eventsRest _ rfl e late

theorem laidOut_later (d : Offset) (results : List (Except ScoreError (List Event))) :
    laidOut (results.map (Except.map (List.map (Event.later d)))) =
      (laidOut results).map (Event.later d) := by
  unfold laidOut
  rw [List.map_flatMap, List.flatMap_map]
  congr 1
  funext result
  cases result <;> rfl

/-- The outcomes of actions, and those of the same actions so much later. There is room for all
places. -/
structure AllDelayed (d : Offset)
    (outcomes delayed : List (Except ScoreError (List Event)) × Part) : Prop where
  same : delayed =
    (outcomes.1.map (Except.map (List.map (Event.later d))), outcomes.2.later d)
  room : outcomes.2.HasRoom d
  events : ∀ e ∈ laidOut outcomes.1, e.offset.HasRoom d

theorem outcomes_delayed (actions : List Action) (room : p.HasRoom d)
    (fits : ∀ result ∈ ((p.later d).outcomes actions).1, result ≠ .error .timelineOverflow) :
    AllDelayed d (p.outcomes actions) ((p.later d).outcomes actions) := by
  induction actions generalizing p with
  | nil => exact ⟨rfl, room, fun e member => absurd member List.not_mem_nil⟩
  | cons a rest ih =>
      have first : ((p.later d).act a).1 ≠ .error .timelineOverflow := fits _ List.mem_cons_self
      obtain ⟨same, roomNext, events⟩ := act_delayed room a first
      simp only [outcomes] at fits ⊢
      rw [same] at fits ⊢
      obtain ⟨sameRest, roomLast, eventsRest⟩ :=
        ih roomNext fun result member => fits result (List.mem_cons_of_mem _ member)
      rw [sameRest]
      refine ⟨rfl, roomLast, fun e member => ?_⟩
      rcases List.mem_append.mp member with early | late
      · cases result : (p.act a).1 with
        | error e' =>
            rw [result] at early
            exact absurd early List.not_mem_nil
        | ok laid =>
            rw [result] at early
            exact events laid result e early
      · exact eventsRest e late

/-- Whatever is done in a part, it is done in the same way so much later, if the end of the timeline
is not in the way: what fails fails in the same way, and all events and all places that the part
keeps are as much later as the part was, none of them cut off. This is so if the actions end with
the first that fails, and also if they go on. All the same is heard, as it starts from the first
note. -/
theorem translation (room : p.HasRoom d) (actions : List Action) :
    (((p.later d).run actions).1 ≠ .error .timelineOverflow →
      Delayed d (later d) (·.HasRoom d) (p.run actions) ((p.later d).run actions) ∧
        ∀ laid, (p.run actions).1 = .ok laid →
          ∃ delayed, ((p.later d).run actions).1 = .ok delayed ∧
            Event.normalize delayed = Event.normalize laid) ∧
      ((∀ result ∈ ((p.later d).outcomes actions).1, result ≠ .error .timelineOverflow) →
        AllDelayed d (p.outcomes actions) ((p.later d).outcomes actions) ∧
          Event.normalize (laidOut ((p.later d).outcomes actions).1) =
            Event.normalize (laidOut (p.outcomes actions).1)) := by
  refine ⟨fun fits => ?_, fun fits => ?_⟩
  · have delayed := run_delayed actions room fits
    refine ⟨delayed, fun laid done => ⟨laid.map (Event.later d), ?_, ?_⟩⟩
    · rw [delayed.same, done]
      rfl
    · exact Event.normalize_later (delayed.events laid done)
  · have delayed := outcomes_delayed actions room fits
    refine ⟨delayed, ?_⟩
    rw [delayed.same, laidOut_later]
    exact Event.normalize_later delayed.events

def failure? {α : Type} : Except ScoreError α → Option ScoreError
  | .error e => some e
  | .ok _ => none

/-- A chord in one voice of a duet, a note that is too high in the other, and one after both. -/
def coda : List Action :=
  [.move (.chord [.note ⟨'c', 0, some ⟨[⟨8, 1⟩]⟩⟩, .rest none]), .voice 2, .move (.octave (.set 9)),
    .move (.note ⟨'a', 0, none⟩), .voice 0, .move (.octave .down), .move (.note ⟨'c', 1, none⟩)]

theorem translation_coda :
    let p := (soloist.run (.voice 1 :: duet)).2
    let hour : Offset := ⟨3600000000⟩
    p.HasRoom hour ∧
      (p.outcomes coda).1.filterMap failure? = [.pitchOutOfRange 'a' 9] ∧
      (laidOut (p.outcomes coda).1).map (·.offset.millis) = [1000, 1500] ∧
      AllDelayed hour (p.outcomes coda) ((p.later hour).outcomes coda) ∧
      Event.normalize (laidOut ((p.later hour).outcomes coda).1) =
        Event.normalize (laidOut (p.outcomes coda).1) := by
  intro p hour
  have room : p.HasRoom hour := by decide +kernel
  have errors : ((p.later hour).outcomes coda).1.filterMap failure? = [.pitchOutOfRange 'a' 9] := by
    decide +kernel
  have fits : ∀ result ∈ ((p.later hour).outcomes coda).1, result ≠ .error .timelineOverflow := by
    rintro result member rfl
    have overflow : ScoreError.timelineOverflow ∈
        ((p.later hour).outcomes coda).1.filterMap failure? :=
      List.mem_filterMap.mpr ⟨_, member, rfl⟩
    rw [errors] at overflow
    cases List.mem_singleton.mp overflow
  have here : (p.outcomes coda).1.filterMap failure? = [.pitchOutOfRange 'a' 9] := by
    decide +kernel
  have places : (laidOut (p.outcomes coda).1).map (·.offset.millis) = [1000, 1500] := by
    decide +kernel
  obtain ⟨delayed, heard⟩ := (translation room coda).2 fits
  exact ⟨room, here, places, delayed, heard⟩

end Part

end Songline
