import Songline.Proofs.VoiceGroups

set_option autoImplicit false

namespace Songline

/-- Lays moves out, one after another, until one fails. -/
def Cursor.play (id : PartId) (c : Cursor) : List Move → Except ScoreError (List Event) × Cursor
  | [] => (.ok [], c)
  | m :: ms =>
    match c.move id m with
    | (.error e, c) => (.error e, c)
    | (.ok events, c) =>
      match c.play id ms with
      | (.error e, c) => (.error e, c)
      | (.ok more, c) => (.ok (events ++ more), c)

namespace Part

/-- Nothing that ends a group of voices. -/
def Action.StaysOpen : Action → Prop
  | .move _ => True
  | .voice n => n ≠ 0
  | .closeVoices => False

/-- The moves made in a voice by actions that begin in the voice `active`. -/
def movesOf (v active : UInt32) : List Action → List Move
  | [] => []
  | .move m :: rest => if active = v then m :: movesOf v active rest else movesOf v active rest
  | .voice n :: rest => movesOf v n rest
  | .closeVoices :: rest => movesOf v active rest

/-- The voices that actions go through when they begin in the voice `active`. -/
def voicesUsed (active : UInt32) : List Action → List UInt32
  | [] => [active]
  | .voice n :: rest => active :: voicesUsed n rest
  | .move _ :: rest | .closeVoices :: rest => voicesUsed active rest

/-- The voice that actions end in when they begin in the voice `active`. -/
def lastVoice (active : UInt32) : List Action → UInt32
  | [] => active
  | .voice n :: rest => lastVoice n rest
  | .move _ :: rest | .closeVoices :: rest => lastVoice active rest

def active (p : Part) : Option UInt32 := p.voices.map (·.active)

def cursorOf (p : Part) (v : UInt32) : Cursor :=
  match p.voices with
  | none => p.cursor
  | some g => g.cursorOf p.cursor v

/-- Acts until something fails, and says of every event in which voice it was laid out. -/
def voicedRun (p : Part) : List Action → Except ScoreError (List (Option UInt32 × Event)) × Part
  | [] => (.ok [], p)
  | a :: rest =>
    match p.act a with
    | (.error e, q) => (.error e, q)
    | (.ok events, q) =>
      match q.voicedRun rest with
      | (.error e, q) => (.error e, q)
      | (.ok more, q) => (.ok (events.map (p.active, ·) ++ more), q)

/-- The events that were laid out in a voice. -/
def eventsOf (v : UInt32) (voiced : List (Option UInt32 × Event)) : List Event :=
  (voiced.filter (·.1 = some v)).map (·.2)

theorem run_eq_voicedRun (p : Part) (actions : List Action) :
    p.run actions = ((p.voicedRun actions).1.map (·.map (·.2)), (p.voicedRun actions).2) := by
  induction actions generalizing p with
  | nil => rfl
  | cons a rest ih =>
      simp only [run, voicedRun]
      rcases acted : p.act a with ⟨_ | events, q⟩
      · rfl
      · simp only [ih q]
        rcases q.voicedRun rest with ⟨_ | more, last⟩
        · rfl
        · simp [Except.map, List.map_map, Function.comp_def]

theorem run_moves (p : Part) (moves : List Move) :
    p.run (moves.map .move) =
      ((p.cursor.play p.id moves).1, { p with cursor := (p.cursor.play p.id moves).2 }) := by
  induction moves generalizing p with
  | nil => rfl
  | cons m moves ih =>
      simp only [List.map_cons, run, act, Cursor.play]
      rcases p.cursor.move p.id m with ⟨_ | events, c⟩
      · rfl
      · simp only [ih { p with cursor := c }]
        rcases c.play p.id moves with ⟨_ | more, last⟩
        · rfl
        · rfl

theorem eventsOf_append (v : UInt32) (voiced more : List (Option UInt32 × Event)) :
    eventsOf v (voiced ++ more) = eventsOf v voiced ++ eventsOf v more := by
  rw [eventsOf, List.filter_append, List.map_append, ← eventsOf, ← eventsOf]

theorem eventsOf_tagged (v active : UInt32) (events : List Event) :
    eventsOf v (events.map (some active, ·)) = if active = v then events else [] := by
  by_cases same : active = v
  · simp [eventsOf, List.filter_map, same, Function.comp_def]
  · simp [eventsOf, List.filter_map, same, Function.comp_def]

/-- An open group after actions that began in a group `g` and went through some voices. -/
structure Follows (g : VoiceGroup) (used : List UInt32) (last : UInt32) (after : VoiceGroup) :
    Prop where
  active : after.active = last
  orderly : g.Orderly → after.Orderly
  voices : ∀ v, v ∈ after.voices ↔ v ∈ used ∨ v ∈ g.voices

theorem Follows.refl (g : VoiceGroup) : Follows g [g.active] g.active g where
  active := rfl
  orderly := fun orderly => orderly
  voices v := by
    refine ⟨Or.inr, fun either => either.elim (fun here => ?_) (fun member => member)⟩
    rw [List.mem_singleton.mp here]
    exact List.mem_cons_self

theorem Follows.trans {g between after : VoiceGroup} {n last : UInt32} {used : List UInt32}
    (first : Follows g [n] n between) (rest : Follows between used last after) (goesOn : n ∈ used) :
    Follows g (g.active :: used) last after where
  active := rest.active
  orderly := fun orderly => rest.orderly (first.orderly orderly)
  voices v := by
    have opening : g.active ∈ g.voices := List.mem_cons_self
    rw [rest.voices, first.voices, List.mem_singleton, List.mem_cons]
    constructor
    · rintro (later | rfl | before)
      · exact Or.inl (Or.inr later)
      · exact Or.inl (Or.inr goesOn)
      · exact Or.inr before
    · rintro ((rfl | later) | before)
      · exact Or.inr (Or.inr opening)
      · exact Or.inl later
      · exact Or.inr (Or.inr before)

/-- Taking up a voice in an open group moves no voice. -/
theorem voice_of_open {p : Part} {g : VoiceGroup} {n : UInt32} (isOpen : p.voices = some g)
    (positive : n ≠ 0) :
    ∃ after, (p.voice n).voices = some after ∧ Follows g [n] n after ∧ (p.voice n).id = p.id ∧
      ∀ v, (p.voice n).cursorOf v = p.cursorOf v := by
  by_cases same : g.active = n
  · have unchanged : p.voice n = p := by
      simp only [voice, positive, ↓reduceIte, isOpen, same]
    rw [unchanged]
    have follows := Follows.refl g
    rw [same] at follows
    exact ⟨g, isOpen, follows, rfl, fun v => rfl⟩
  · have switched : p.voice n =
        { p with
          cursor := (g.switch p.cursor n).1
          voices := some (g.switch p.cursor n).2 } := by
      simp only [voice, positive, ↓reduceIte, isOpen, same]
    rw [switched]
    refine ⟨(g.switch p.cursor n).2, rfl, ⟨rfl, g.orderly_switch p.cursor n, fun v => ?_⟩, rfl,
      fun v => ?_⟩
    · rw [g.mem_voices_switch, List.mem_singleton]
    · simp only [cursorOf, isOpen]
      exact g.cursorOf_switch p.cursor n v (Ne.symm same)

theorem cursorOf_move {p : Part} {g : VoiceGroup} (isOpen : p.voices = some g) (c : Cursor)
    (v : UInt32) :
    cursorOf { p with cursor := c } v = if g.active = v then c else p.cursorOf v := by
  simp only [cursorOf, isOpen, VoiceGroup.cursorOf]
  by_cases same : g.active = v
  · simp [same]
  · simp [same, Ne.symm same]

theorem cursorOf_active {p : Part} {g : VoiceGroup} (isOpen : p.voices = some g) :
    p.cursorOf g.active = p.cursor := by
  simp only [cursorOf, isOpen, VoiceGroup.cursorOf, ↓reduceIte]

def following (events : List Event) (outcome : Except ScoreError (List Event) × Cursor) :
    Except ScoreError (List Event) × Cursor :=
  (outcome.1.map (events ++ ·), outcome.2)

/-- A move is made by the active voice and heard by no other. -/
theorem play_move {p : Part} {g : VoiceGroup} {m : Move} {events : List Event} {c : Cursor}
    (isOpen : p.voices = some g) (moved : p.cursor.move p.id m = (.ok events, c)) (v : UInt32)
    (rest : List Action) :
    (p.cursorOf v).play p.id (movesOf v g.active (.move m :: rest)) =
      following (if g.active = v then events else [])
        ((cursorOf { p with cursor := c } v).play p.id (movesOf v g.active rest)) := by
  rw [cursorOf_move isOpen c v]
  by_cases same : g.active = v
  · subst same
    simp only [movesOf, ↓reduceIte, cursorOf_active isOpen, Cursor.play, moved]
    rcases c.play p.id (movesOf g.active g.active rest) with ⟨_ | more, last⟩ <;> rfl
  · simp only [movesOf, same, ↓reduceIte]
    rcases (p.cursorOf v).play p.id (movesOf v g.active rest) with ⟨_ | more, last⟩ <;> rfl

theorem active_mem_voicesUsed (active : UInt32) (actions : List Action) :
    active ∈ voicesUsed active actions := by
  induction actions with
  | nil => exact List.mem_singleton.mpr rfl
  | cons a rest ih =>
      cases a with
      | voice n => exact List.mem_cons_self
      | move m | closeVoices => exact ih

/-- What a run in an open group tells about each voice alone: it fails as one of them does, and
otherwise lays out what each of them lays out, and takes each where it gets. -/
def Projects (p : Part) (g : VoiceGroup) (actions : List Action) :
    Except ScoreError (List (Option UInt32 × Event)) × Part → Prop
  | (.error e, _) =>
      ∃ v ∈ voicesUsed g.active actions, ∃ c,
        (p.cursorOf v).play p.id (movesOf v g.active actions) = (.error e, c)
  | (.ok voiced, q) =>
      (∃ after, q.voices = some after ∧
        Follows g (voicesUsed g.active actions) (lastVoice g.active actions) after) ∧
      ∀ v, (p.cursorOf v).play p.id (movesOf v g.active actions) =
        (.ok (eventsOf v voiced), q.cursorOf v)

theorem voicedRun_voice (p : Part) (n : UInt32) (actions : List Action) :
    p.voicedRun (.voice n :: actions) = (p.voice n).voicedRun actions := by
  simp only [voicedRun, act]
  rcases (p.voice n).voicedRun actions with ⟨_ | more, q⟩ <;> rfl

theorem projects_move {p : Part} {g : VoiceGroup} (m : Move) {rest : List Action}
    (isOpen : p.voices = some g)
    (later : ∀ c, Projects { p with cursor := c } g rest (voicedRun { p with cursor := c } rest)) :
    Projects p g (.move m :: rest) (p.voicedRun (.move m :: rest)) := by
  simp only [voicedRun, act]
  rcases moved : p.cursor.move p.id m with ⟨e | events, c⟩
  · refine ⟨g.active, active_mem_voicesUsed g.active _, c, ?_⟩
    simp only [movesOf, ↓reduceIte, cursorOf_active isOpen, Cursor.play, moved]
  · -- the run of the active voice begins with this move, and those of the others do not change
    have alone := play_move isOpen moved
    have projects := later c
    simp only
    generalize voicedRun { p with cursor := c } rest = outcome at projects ⊢
    rcases outcome with ⟨e | more, q⟩
    · obtain ⟨v, used, stop, failed⟩ := projects
      refine ⟨v, used, stop, ?_⟩
      rw [alone, failed]
      rfl
    · obtain ⟨follows, done⟩ := projects
      refine ⟨follows, fun v => ?_⟩
      rw [alone, done, eventsOf_append]
      simp only [active, isOpen, Option.map_some, eventsOf_tagged]
      rfl

theorem projects_voice {p : Part} {g : VoiceGroup} {n : UInt32} {rest : List Action}
    (isOpen : p.voices = some g) (positive : n ≠ 0)
    (later : ∀ between, (p.voice n).voices = some between →
      Projects (p.voice n) between rest ((p.voice n).voicedRun rest)) :
    Projects p g (.voice n :: rest) (p.voicedRun (.voice n :: rest)) := by
  obtain ⟨between, isOpenAfter, follows, sameId, unmoved⟩ := voice_of_open isOpen positive
  have projects := later between isOpenAfter
  rw [voicedRun_voice]
  generalize (p.voice n).voicedRun rest = outcome at projects ⊢
  rcases outcome with ⟨e | more, q⟩
  · obtain ⟨v, used, stop, failed⟩ := projects
    rw [follows.active] at used failed
    rw [sameId, unmoved] at failed
    exact ⟨v, List.mem_cons_of_mem _ used, stop, failed⟩
  · obtain ⟨⟨after, isOpenLast, followsLast⟩, done⟩ := projects
    rw [follows.active] at followsLast done
    rw [sameId] at done
    refine ⟨⟨after, isOpenLast, follows.trans followsLast (active_mem_voicesUsed n rest)⟩,
      fun v => ?_⟩
    rw [← unmoved]
    exact done v

theorem projects_voicedRun {p : Part} {g : VoiceGroup} {actions : List Action}
    (isOpen : p.voices = some g) (stays : ∀ a ∈ actions, a.StaysOpen) :
    Projects p g actions (p.voicedRun actions) := by
  induction actions generalizing p g with
  | nil => exact ⟨⟨g, isOpen, Follows.refl g⟩, fun v => rfl⟩
  | cons a rest ih =>
      have staysRest : ∀ a ∈ rest, a.StaysOpen :=
        fun a member => stays a (List.mem_cons_of_mem _ member)
      cases a with
      | move m => exact projects_move m isOpen fun c => ih isOpen staysRest
      | voice n =>
          have positive : n ≠ 0 := stays (.voice n) List.mem_cons_self
          exact projects_voice isOpen positive fun between isOpenAfter => ih isOpenAfter staysRest
      | closeVoices => exact (stays .closeVoices List.mem_cons_self).elim

/-- Closing a group takes the part to the furthest of its voices, with the style of the active. -/
theorem closeVoices_furthest {p : Part} {g : VoiceGroup} (isOpen : p.voices = some g)
    (orderly : g.Orderly) :
    (∃ v ∈ g.voices, p.closeVoices.cursor.offset = (p.cursorOf v).offset) ∧
      (∀ v ∈ g.voices, (p.cursorOf v).offset.micros ≤ p.closeVoices.cursor.offset.micros) ∧
      p.closeVoices.cursor.style = (p.cursorOf g.active).style := by
  have closed : p.closeVoices.cursor =
      { p.cursor with
        offset := (g.parked.map (·.2.offset)).foldl Offset.max p.cursor.offset } := by
    simp only [closeVoices, isOpen]
  have parked : ∀ v c, (v, c) ∈ g.parked → p.cursorOf v = c := by
    intro v c member
    simp only [cursorOf, isOpen]
    exact VoiceGroup.cursorOf_of_parked p.cursor orderly member
  obtain ⟨reached, greatest⟩ :=
    Offset.foldl_max_greatest (g.parked.map (·.2.offset)) p.cursor.offset
  rw [closed, cursorOf_active isOpen]
  refine ⟨?_, ?_, rfl⟩
  · rcases List.mem_cons.mp reached with here | there
    · exact ⟨g.active, List.mem_cons_self, by rw [cursorOf_active isOpen]; exact here⟩
    · obtain ⟨⟨v, c⟩, member, same⟩ := List.mem_map.mp there
      refine ⟨v, List.mem_cons_of_mem _ (List.mem_map.mpr ⟨(v, c), member, rfl⟩), ?_⟩
      rw [parked v c member]
      exact same.symm
  · intro v taken
    rcases List.mem_cons.mp taken with rfl | left
    · rw [cursorOf_active isOpen]
      exact greatest _ List.mem_cons_self
    · obtain ⟨⟨v, c⟩, member, rfl⟩ := List.mem_map.mp left
      rw [parked v c member]
      exact greatest _ (List.mem_cons_of_mem _ (List.mem_map.mpr ⟨(v, c), member, rfl⟩))

/-- A voice alone: the part makes the moves that the voice makes, and opens no group. -/
def alone (p : Part) (n : UInt32) (actions : List Action) (v : UInt32) :
    Except ScoreError (List Event) × Part :=
  p.run ((movesOf v n actions).map .move)

theorem alone_eq_play (p : Part) (n : UInt32) (actions : List Action) (v : UInt32) :
    p.alone n actions v =
      ((p.cursor.play p.id (movesOf v n actions)).1,
        { p with cursor := (p.cursor.play p.id (movesOf v n actions)).2 }) :=
  p.run_moves (movesOf v n actions)

/-- The first voice of a group opens it where the part is. -/
theorem voice_of_closed {p : Part} {n : UInt32} (closed : p.voices = none) (positive : n ≠ 0) :
    p.voice n = { p with voices := some ⟨p.cursor, n, []⟩ } := by
  simp only [voice, positive, ↓reduceIte, closed]

theorem cursorOf_voice_of_closed {p : Part} {n : UInt32} (closed : p.voices = none)
    (positive : n ≠ 0) (v : UInt32) : (p.voice n).cursorOf v = p.cursor := by
  rw [voice_of_closed closed positive]
  simp only [cursorOf, VoiceGroup.cursorOf, List.lookup_nil, Option.getD_none]
  split <;> rfl

/-- What a run that opens a group tells about each voice alone. -/
theorem projects_of_closed {p : Part} {n : UInt32} {actions : List Action}
    (closed : p.voices = none) (positive : n ≠ 0) (stays : ∀ a ∈ actions, a.StaysOpen) :
    Projects (p.voice n) ⟨p.cursor, n, []⟩ actions (p.voicedRun (.voice n :: actions)) ∧
      ∀ v, ((p.voice n).cursorOf v).play (p.voice n).id (movesOf v n actions) =
        ((p.alone n actions v).1, (p.alone n actions v).2.cursor) := by
  have opened := voice_of_closed closed positive
  rw [voicedRun_voice]
  refine ⟨projects_voicedRun (by rw [opened]) stays, fun v => ?_⟩
  rw [cursorOf_voice_of_closed closed positive, alone_eq_play, opened]

/-- However its voices are interleaved, a group fails just when one of them fails alone. Otherwise
each voice lays out what it lays out alone, and the group closes where the furthest gets alone, in
the style of the last. -/
theorem voices_independent {p : Part} {n : UInt32} {actions : List Action}
    (closed : p.voices = none) (positive : n ≠ 0) (stays : ∀ a ∈ actions, a.StaysOpen) :
    ((∃ events, (p.run (.voice n :: actions)).1 = .ok events) ↔
      ∀ v ∈ voicesUsed n actions, ∃ events, (p.alone n actions v).1 = .ok events) ∧
    ∀ events q, p.run (.voice n :: actions) = (.ok events, q) →
      ∃ voiced, p.voicedRun (.voice n :: actions) = (.ok voiced, q) ∧
        voiced.map (·.2) = events ∧
        (∀ v ∈ voicesUsed n actions, (p.alone n actions v).1 = .ok (eventsOf v voiced)) ∧
        (∃ v ∈ voicesUsed n actions,
          q.closeVoices.cursor.offset = (p.alone n actions v).2.cursor.offset) ∧
        (∀ v ∈ voicesUsed n actions,
          (p.alone n actions v).2.cursor.offset.micros ≤ q.closeVoices.cursor.offset.micros) ∧
        q.closeVoices.cursor.style =
          (p.alone n actions (lastVoice n actions)).2.cursor.style := by
  obtain ⟨projects, alone⟩ := projects_of_closed closed positive stays
  rw [run_eq_voicedRun]
  generalize p.voicedRun (.voice n :: actions) = outcome at projects ⊢
  rcases outcome with ⟨e | voiced, q⟩
  · obtain ⟨v, used, c, failed⟩ := projects
    rw [alone] at failed
    refine ⟨⟨?_, ?_⟩, ?_⟩
    · rintro ⟨events, done⟩
      cases done
    · intro done
      obtain ⟨events, done⟩ := done v used
      rw [done] at failed
      cases failed
    · rintro events q done
      cases done
  · obtain ⟨⟨after, isOpen, follows⟩, done⟩ := projects
    have outcome : ∀ v, (p.alone n actions v).1 = .ok (eventsOf v voiced) ∧
        (p.alone n actions v).2.cursor = q.cursorOf v := by
      intro v
      have same := (alone v).symm.trans (done v)
      exact ⟨congrArg Prod.fst same, congrArg Prod.snd same⟩
    have orderly : after.Orderly := by
      apply follows.orderly
      exact ⟨List.nodup_nil, List.not_mem_nil⟩
    have taken : ∀ v, v ∈ after.voices ↔ v ∈ voicesUsed n actions := by
      intro v
      rw [follows.voices]
      refine ⟨fun either => either.elim (fun used => used) (fun first => ?_), Or.inl⟩
      rw [List.mem_singleton.mp first]
      exact active_mem_voicesUsed n actions
    refine ⟨⟨fun _ v _ => ⟨_, (outcome v).1⟩, fun _ => ⟨_, rfl⟩⟩, ?_⟩
    intro events last finished
    cases finished
    obtain ⟨⟨v, used, reached⟩, greatest, style⟩ := closeVoices_furthest isOpen orderly
    refine ⟨voiced, rfl, rfl, fun v _ => (outcome v).1, ⟨v, (taken v).mp used, ?_⟩, ?_, ?_⟩
    · rw [reached, (outcome v).2]
    · intro v used
      rw [(outcome v).2]
      exact greatest v ((taken v).mpr used)
    · rw [style, (outcome _).2, follows.active]

def soloist : Part := new ⟨0⟩ ⟨"piano", "piano", .keys⟩ .default

/-- Two notes in the first voice, with three of the second between them. -/
def duet : List Action :=
  [.move (.note ⟨'c', 0, none⟩), .voice 2, .move (.note ⟨'e', 0, none⟩), .move (.octave .up),
    .move (.note ⟨'c', 0, none⟩), .move (.note ⟨'d', 0, none⟩), .voice 1,
    .move (.note ⟨'g', 0, none⟩)]

theorem voices_independent_duet :
    soloist.voices = none ∧ (1 : UInt32) ≠ 0 ∧ (∀ a ∈ duet, a.StaysOpen) ∧
      ∃ voiced q, soloist.run (.voice 1 :: duet) = (.ok (voiced.map (·.2)), q) ∧
        (eventsOf 1 voiced).map (·.pitch) = [60, 67] ∧
        (eventsOf 2 voiced).map (·.pitch) = [64, 72, 74] ∧
        q.closeVoices.cursor.style.octave = 4 := by
  have stays : ∀ a ∈ duet, a.StaysOpen := by
    simp [duet, Action.StaysOpen]
  have positive : (1 : UInt32) ≠ 0 := by decide
  obtain ⟨-, finishes⟩ := voices_independent (p := soloist) rfl positive stays
  have first : (soloist.alone 1 duet 1).1.toOption.map (·.map (·.pitch)) = some [60, 67] := by
    decide +kernel
  have second : (soloist.alone 1 duet 2).1.toOption.map (·.map (·.pitch)) = some [64, 72, 74] := by
    decide +kernel
  have style : (soloist.alone 1 duet 1).2.cursor.style.octave = 4 := by
    decide +kernel
  rcases ran : soloist.run (.voice 1 :: duet) with ⟨e | events, q⟩
  · have done : (soloist.run (.voice 1 :: duet)).1.toOption.isSome := by
      decide +kernel
    rw [ran] at done
    cases done
  · obtain ⟨voiced, -, rfl, outcomes, -, -, last⟩ := finishes events q ran
    rw [outcomes 1 (by decide)] at first
    rw [outcomes 2 (by decide)] at second
    refine ⟨rfl, positive, stays, voiced, q, rfl, Option.some.inj first, Option.some.inj second, ?_⟩
    rw [last]
    exact style

end Part

end Songline
