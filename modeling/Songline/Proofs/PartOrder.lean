import Songline.Proofs.VoiceGroups

set_option autoImplicit false

namespace Songline

theorem Pitch.le_of_midi? {letter : Char} {accidentals octave : Int} {pitch : UInt8}
    (found : midi? letter accidentals octave = some pitch) : pitch ≤ 127 := by
  unfold midi? at found
  cases known : letterStep? letter with
  | none =>
      rw [known] at found
      cases found
  | some step =>
      simp only [known, Option.bind_eq_bind, Option.bind_some] at found
      split at found
      · rename_i inRange
        cases found
        have small : (number step accidentals octave).toNat < 256 := by omega
        rw [UInt8.le_iff_toNat_le, UInt8.toNat_ofNat', Nat.mod_eq_of_lt small]
        have bound : (127 : UInt8).toNat = 127 := rfl
        omega
      · cases found

/-- A note of a part that MIDI has, with a volume in percent. -/
structure Event.Playable (id : PartId) (e : Event) : Prop where
  part : e.part = id
  pitch : e.pitch ≤ 127
  volume : e.volume ≤ 100

namespace Cursor

/-- An outcome does not lead back from a cursor, and a result is as expected. -/
structure Leaves {α : Type} (c : Cursor) (expected : α → Prop)
    (outcome : Except ScoreError α × Cursor) : Prop where
  onward : c.offset.micros ≤ outcome.2.offset.micros
  result : ∀ a, outcome.1 = .ok a → expected a

namespace Leaves

variable {α β : Type} {c next : Cursor} {expected : α → Prop} {wanted : β → Prop}

theorem failed {e : ScoreError} (onward : c.offset.micros ≤ next.offset.micros) :
    Leaves c expected (.error e, next) := by
  refine ⟨onward, fun a done => ?_⟩
  cases done

theorem done {a : α} (onward : c.offset.micros ≤ next.offset.micros) (good : expected a) :
    Leaves c expected (.ok a, next) := by
  refine ⟨onward, fun b same => ?_⟩
  cases same
  exact good

/-- What goes on from a result goes on from where that began. -/
theorem followed {a : α} {outcome : Except ScoreError β × Cursor}
    (first : Leaves c expected (.ok a, next)) (rest : expected a → Leaves next wanted outcome) :
    Leaves c wanted outcome := by
  have later := rest (first.result a rfl)
  exact ⟨UInt64.le_trans first.onward later.onward, later.result⟩

end Leaves

theorem leaves_step (c : Cursor) (length : Option Length) :
    Leaves c (fun _ => True) (c.step length) := by
  unfold step
  split
  · exact .done (UInt64.le_refl _) trivial
  · split
    · exact .failed (UInt64.le_refl _)
    · exact .done (UInt64.le_refl _) trivial

theorem leaves_sound (id : PartId) (c : Cursor) (n : Note) :
    Leaves c (fun laid => laid.1.Playable id) (c.sound id n) := by
  have stepped := leaves_step c n.length
  unfold sound
  generalize c.step n.length = outcome at stepped ⊢
  rcases outcome with ⟨e | step, next⟩
  · exact .failed stepped.onward
  · simp only
    split
    · exact .failed stepped.onward
    · rename_i pitch found
      refine .done stepped.onward ⟨rfl, Pitch.le_of_midi? found, ?_⟩
      exact next.style.volume.le_hundred

theorem leaves_member (id : PartId) (c : Cursor) (m : ChordMember) :
    Leaves c (fun laid => ∀ e ∈ laid.1, e.Playable id) (c.member id m) := by
  cases m with
  | note n =>
      have sounded := leaves_sound id c n
      simp only [member]
      generalize c.sound id n = outcome at sounded ⊢
      rcases outcome with ⟨e | ⟨e, step⟩, next⟩
      · exact .failed sounded.onward
      · refine .done sounded.onward fun other here => ?_
        rw [List.mem_singleton.mp here]
        exact sounded.result _ rfl
  | rest length =>
      have stepped := leaves_step c length
      simp only [member]
      generalize c.step length = outcome at stepped ⊢
      rcases outcome with ⟨e | step, next⟩
      · exact .failed stepped.onward
      · exact .done stepped.onward fun other here => absurd here List.not_mem_nil

theorem leaves_members (id : PartId) (ms : List ChordMember) (c : Cursor)
    (shortest : Option Offset) :
    Leaves c (fun laid => ∀ e ∈ laid.1, e.Playable id) (c.members id shortest ms) := by
  induction ms generalizing c shortest with
  | nil => exact .done (UInt64.le_refl _) fun e here => absurd here List.not_mem_nil
  | cons m ms ih =>
      have first := leaves_member id c m
      simp only [members]
      generalize c.member id m = outcome at first ⊢
      rcases outcome with ⟨e | ⟨events, step⟩, next⟩
      · exact .failed first.onward
      · refine first.followed fun playable => ?_
        have rest := ih next (some ((shortest.map (·.min step)).getD step))
        simp only
        generalize next.members id _ ms = outcome at rest ⊢
        rcases outcome with ⟨e | ⟨more, least⟩, last⟩
        · exact .failed rest.onward
        · refine .done rest.onward fun e here => ?_
          rcases List.mem_append.mp here with early | late
          · exact playable e early
          · exact rest.result _ rfl e late

theorem leaves_advance (c : Cursor) (step : Offset) :
    Leaves c (fun _ => True) (c.advance step) := by
  unfold advance
  cases sum : c.offset.add? step with
  | none => exact .failed (UInt64.le_refl _)
  | some offset =>
      unfold Offset.add? at sum
      obtain ⟨micros, counted, rfl⟩ := Option.map_eq_some_iff.mp sum
      have exact := Saturating.toNat_of_add? counted
      refine .done ?_ trivial
      rw [UInt64.le_iff_toNat_le, exact]
      omega

theorem leaves_advanceAfter {expected : List Event → Prop} (c : Cursor) (events : List Event)
    (step : Offset) (good : expected events) : Leaves c expected (c.advanceAfter events step) := by
  have advanced := leaves_advance c step
  unfold advanceAfter
  generalize c.advance step = outcome at advanced ⊢
  rcases outcome with ⟨e | ⟨⟩, next⟩
  · exact .failed advanced.onward
  · exact .done advanced.onward good

theorem leaves_restyle {expected : List Event → Prop} (c : Cursor)
    (style : Except ScoreError Style) (good : expected []) :
    Leaves c expected (c.restyle style) := by
  cases style with
  | error e => exact .failed (UInt64.le_refl _)
  | ok style => exact .done (UInt64.le_refl _) good

/-- No move leads back, and what it lays out can be played. -/
theorem leaves_move (id : PartId) (c : Cursor) (m : Move) :
    Leaves c (fun events => ∀ e ∈ events, e.Playable id) (c.move id m) := by
  have silent : ∀ e ∈ ([] : List Event), e.Playable id :=
    fun e here => absurd here List.not_mem_nil
  cases m with
  | note n =>
      have sounded := leaves_sound id c n
      simp only [move]
      generalize c.sound id n = outcome at sounded ⊢
      rcases outcome with ⟨e | ⟨e, step⟩, next⟩
      · exact .failed sounded.onward
      · refine sounded.followed fun playable => leaves_advanceAfter next [e] step ?_
        intro other here
        rw [List.mem_singleton.mp here]
        exact playable
  | rest length =>
      have stepped := leaves_step c length
      simp only [move]
      generalize c.step length = outcome at stepped ⊢
      rcases outcome with ⟨e | step, next⟩
      · exact .failed stepped.onward
      · exact stepped.followed fun _ => leaves_advanceAfter next [] step silent
  | chord ms =>
      have laid := leaves_members id ms c none
      simp only [move]
      generalize c.members id none ms = outcome at laid ⊢
      rcases outcome with ⟨e | ⟨events, _ | step⟩, next⟩
      · exact .failed laid.onward
      · exact .done laid.onward (laid.result _ rfl)
      · exact laid.followed fun playable => leaves_advanceAfter next events step playable
  | octave change => exact leaves_restyle c _ silent
  | set name value => exact leaves_restyle c _ silent

end Cursor

/-- In an open group, with the part at a cursor: no voice is parked twice, the active one not at
all, and none is before the opening. -/
structure VoiceGroup.InOrder (g : VoiceGroup) (c : Cursor) : Prop extends g.Orderly where
  reached : g.opening.offset.micros ≤ c.offset.micros
  parked : ∀ entry ∈ g.parked, g.opening.offset.micros ≤ entry.2.offset.micros

namespace VoiceGroup

theorem InOrder.of_le {g : VoiceGroup} {c after : Cursor} (ordered : g.InOrder c)
    (onward : c.offset.micros ≤ after.offset.micros) : g.InOrder after where
  toOrderly := ordered.toOrderly
  reached := UInt64.le_trans ordered.reached onward
  parked := ordered.parked

/-- A voice that is taken up is one that was parked, or begins at the opening. -/
theorem InOrder.switch {g : VoiceGroup} {c : Cursor} (ordered : g.InOrder c) (n : UInt32) :
    (g.switch c n).2.InOrder (g.switch c n).1 := by
  have parked : ∀ entry ∈ g.park c, g.opening.offset.micros ≤ entry.2.offset.micros := by
    intro entry member
    rcases g.mem_park c entry member with rfl | earlier
    · exact ordered.reached
    · exact ordered.parked entry earlier
  refine ⟨orderly_switch g c n ordered.toOrderly, ?_, fun entry member => ?_⟩
  · have opening : (g.switch c n).2.opening = g.opening := rfl
    rw [opening]
    rcases g.switch_cursor c n with ⟨entry, member, there⟩ | begun
    · rw [there]
      exact parked entry member
    · rw [begun]
      exact UInt64.le_refl _
  · exact parked entry (List.mem_filter.mp member).1

end VoiceGroup

namespace Part

def InOrder (p : Part) : Prop := ∀ g, p.voices = some g → g.InOrder p.cursor

theorem inOrder_of_closed {p : Part} (closed : p.voices = none) : p.InOrder := by
  intro g isOpen
  rw [closed] at isOpen
  cases isOpen

theorem voices_closeVoices (p : Part) : p.closeVoices.voices = none := by
  unfold closeVoices
  split
  · assumption
  · rfl

theorem InOrder.voice {p : Part} (ordered : p.InOrder) (n : UInt32) : (p.voice n).InOrder := by
  unfold Part.voice
  split
  · exact inOrder_of_closed (voices_closeVoices p)
  · cases isOpen : p.voices with
    | none =>
        intro g opened
        cases opened
        exact ⟨⟨List.nodup_nil, List.not_mem_nil⟩, UInt64.le_refl _,
          fun entry member => absurd member List.not_mem_nil⟩
    | some g =>
        simp only
        split
        · exact ordered
        · intro next switched
          cases switched
          exact (ordered g isOpen).switch n

theorem InOrder.act {p : Part} (ordered : p.InOrder) (a : Action) : (p.act a).2.InOrder := by
  cases a with
  | move m =>
      intro g isOpen
      exact (ordered g isOpen).of_le (Cursor.leaves_move p.id p.cursor m).onward
  | voice n => exact ordered.voice n
  | closeVoices => exact inOrder_of_closed (voices_closeVoices p)

theorem InOrder.restyle {p : Part} (ordered : p.InOrder) (change : Style → Style) :
    (p.restyle change).InOrder :=
  fun g isOpen => (ordered g isOpen).of_le (UInt64.le_refl _)

theorem playable_act {p q : Part} {a : Action} {events : List Event}
    (acted : p.act a = (.ok events, q)) : ∀ e ∈ events, e.Playable p.id := by
  cases a with
  | move m =>
      have moved := (Cursor.leaves_move p.id p.cursor m).result
      have result : (p.cursor.move p.id m).1 = .ok events := congrArg Prod.fst acted
      exact moved events result
  | voice n | closeVoices =>
      cases acted
      exact fun e here => absurd here List.not_mem_nil

end Part

end Songline
