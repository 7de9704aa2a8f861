import Songline.Sound.Rack

set_option autoImplicit false

namespace Songline

namespace Event

theorem velocity_of_silent {e : Event} (silent : e.volume = 0) : e.velocity = 0.0 := by
  rw [velocity, silent]
  decide

end Event

namespace Synth

/-- No synthesizer makes a sound at no volume. -/
theorem mono_of_silent (s : Synth) {e : Event} (silent : e.volume = 0) (rate : UInt32) :
    s.mono e rate = #[] := by
  have unheard : e.velocity ≤ 0.0 := by
    rw [Event.velocity_of_silent silent]
    decide
  cases s with
  | tone t => rw [mono, Tone.mono, if_pos unheard]
  | pluck seed => rw [mono, Pluck.mono, if_pos (Or.inl unheard)]
  | drums seed => rw [mono, Drum.mono, if_pos unheard]

end Synth

namespace Rack

/-- There is no sound of a part that is not loaded, and none at no volume. -/
theorem render_of_unheard (r : Rack) {e : Event} (format : SoundFormat)
    (unheard : r.slots[e.part]? = none ∨ e.volume = 0) : r.render e format = #[] := by
  rcases unheard with missing | silent
  · rw [render, missing]
  · unfold render
    cases r.slots[e.part]? with
    | none => rfl
    | some slot =>
        show slot.synth.render e format = #[]
        rw [Synth.render, Synth.mono_of_silent slot.synth silent]
        rfl

end Rack

namespace Mixdown

variable (rack : Rack) (format : SoundFormat)

/-- The place behind the last sample of an event. -/
def ending (e : Event) : Nat := place format e + (rack.render e format).size

/-- The sample that an event has at a place, if its sound reaches there. -/
def soundAt (k : Nat) (e : Event) : Option Float32 :=
  if place format e ≤ k then (rack.render e format)[k - place format e]? else none

def audible (events : List Event) : List Event :=
  events.filter fun e => !(rack.render e format).isEmpty

theorem soundAt_isSome_iff (k : Nat) (e : Event) :
    (soundAt rack format k e).isSome ↔ place format e ≤ k ∧ k < ending rack format e := by
  unfold soundAt ending
  by_cases begun : place format e ≤ k
  · rw [if_pos begun, Option.isSome_iff_exists]
    constructor
    · rintro ⟨x, sample⟩
      obtain ⟨inside, -⟩ := Array.getElem?_eq_some_iff.mp sample
      exact ⟨begun, by omega⟩
    · rintro ⟨-, before⟩
      exact ⟨_, Array.getElem?_eq_getElem (by omega)⟩
  · rw [if_neg begun]
    constructor
    · intro sample
      cases sample
    · intro within
      exact absurd within.1 begun

theorem addEvent_of_unheard {e : Event} (out : Samples) (none : rack.render e format = #[]) :
    addEvent rack format out e = out := by
  unfold addEvent
  rw [none]
  rfl

theorem size_addEvent (out : Samples) (e : Event) :
    (addEvent rack format out e).size =
      if (rack.render e format).isEmpty then out.size else max out.size (ending rack format e) := by
  unfold addEvent
  by_cases none : (rack.render e format).isEmpty
  · rw [if_pos none, if_pos none]
  · rw [if_neg none, if_neg none, Samples.size_mixAt, Nat.max_comm]
    rfl

/-- An event adds the sample that it has at a place, and nothing where it has none. -/
theorem getD_addEvent (out : Samples) (e : Event) (k : Nat) :
    (addEvent rack format out e)[k]?.getD 0.0 =
      match soundAt rack format k e with
      | some x => out[k]?.getD 0.0 + x
      | none => out[k]?.getD 0.0 := by
  by_cases unheard : rack.render e format = #[]
  · have missing : soundAt rack format k e = none := by
      unfold soundAt
      rw [unheard, Array.getElem?_empty, ite_self]
    rw [addEvent_of_unheard rack format out unheard, missing]
  · have added : addEvent rack format out e =
        Samples.mixAt (place format e) (rack.render e format) out :=
      if_neg (by simpa using unheard)
    unfold soundAt
    by_cases begun : place format e ≤ k
    · have here : place format e + (k - place format e) = k := by omega
      have mixed := Samples.getElem?_mixAt (place format e) (rack.render e format) out
        (k - place format e)
      rw [here] at mixed
      rw [added, mixed, if_pos begun]
      cases (rack.render e format)[k - place format e]? with
      | none => rfl
      | some x => simp only [Option.getD_some]
    · rw [added, Samples.getElem?_mixAt_before _ _ _ (by omega), if_neg begun]
      split
      · simp only [Option.getD_some]
      · rfl

theorem size_foldl_addEvent (events : List Event) (out : Samples) :
    (events.foldl (addEvent rack format) out).size =
      ((audible rack format events).map (ending rack format)).foldl max out.size := by
  induction events generalizing out with
  | nil => rfl
  | cons e events ih =>
      rw [List.foldl_cons, ih, size_addEvent]
      unfold audible
      by_cases none : (rack.render e format).isEmpty
      · rw [if_pos none, List.filter_cons_of_neg (by simpa using none)]
      · rw [if_neg none, List.filter_cons_of_pos (by simpa using none)]
        rfl

theorem getD_foldl_addEvent (events : List Event) (out : Samples) (k : Nat) :
    (events.foldl (addEvent rack format) out)[k]?.getD 0.0 =
      (events.filterMap (soundAt rack format k)).foldl (· + ·) (out[k]?.getD 0.0) := by
  induction events generalizing out with
  | nil => rfl
  | cons e events ih =>
      rw [List.foldl_cons, ih, getD_addEvent]
      cases sample : soundAt rack format k e with
      | none => rw [List.filterMap_cons_none sample]
      | some x =>
          rw [List.filterMap_cons_some sample]
          rfl

end Mixdown

/-- Every sample of a mixdown is a sum that begins with silence. -/
theorem Playback.getElem?_mixdown (p : Playback) (rack : Rack) (format : SoundFormat) {k : Nat}
    (inside : k < (p.mixdown rack format).size) :
    (p.mixdown rack format)[k]? =
      some ((p.events.filterMap (Mixdown.soundAt rack format k)).foldl (· + ·) 0.0) := by
  have sum := Mixdown.getD_foldl_addEvent rack format p.events #[] k
  have there : (p.mixdown rack format)[k]? = some (p.mixdown rack format)[k] :=
    Array.getElem?_eq_getElem inside
  rw [there]
  unfold mixdown at there
  rw [there] at sum
  exact congrArg some sum

/-- A mixdown is as long as the last sound that ends in it, and holds at each place what the events
have there, added to silence in their order: an event has samples from its own place to its ending.
Events without a sound may be anywhere among the others, and those of parts that are not loaded, or
at no volume, have none. -/
theorem Playback.mixdown_places (p : Playback) (rack : Rack) (format : SoundFormat) :
    let out := p.mixdown rack format
    out.size =
      ((Mixdown.audible rack format p.events).map (Mixdown.ending rack format)).foldl max 0 ∧
    (∀ k, k < out.size → out[k]? =
      some ((p.events.filterMap (Mixdown.soundAt rack format k)).foldl (· + ·) 0.0)) ∧
    (∀ k e, (Mixdown.soundAt rack format k e).isSome ↔
      Mixdown.place format e ≤ k ∧ k < Mixdown.ending rack format e) ∧
    (∀ before e after, rack.render e format = #[] →
      Playback.mixdown ⟨before ++ e :: after, p.parts⟩ rack format =
        Playback.mixdown ⟨before ++ after, p.parts⟩ rack format) ∧
    ∀ e : Event, rack.slots[e.part]? = none ∨ e.volume = 0 → rack.render e format = #[] := by
  intro out
  refine ⟨?_, ?_, ?_, ?_, ?_⟩
  · exact Mixdown.size_foldl_addEvent rack format p.events #[]
  · intro k inside
    exact p.getElem?_mixdown rack format inside
  · exact Mixdown.soundAt_isSome_iff rack format
  · intro before e after none
    unfold mixdown
    rw [List.foldl_append, List.foldl_append, List.foldl_cons,
      Mixdown.addEvent_of_unheard rack format _ none]
  · intro e unheard
    exact rack.render_of_unheard format unheard

/-- A piano is loaded. Between its two notes stands one of a part that is not. -/
theorem Playback.missing_part_unheard :
    let rack : Rack := ⟨(∅ : Std.ExtTreeMap PartId Rack.Slot).insert ⟨0⟩ ⟨.keys, .tone .keys⟩, 0⟩
    let note := fun part : PartId => (⟨.zero, part, 60, .ofMillis 450, 100⟩ : Event)
    rack.render (note ⟨1⟩) ⟨44100, 2⟩ = #[] ∧
      Playback.mixdown ⟨[note ⟨0⟩] ++ note ⟨1⟩ :: [note ⟨0⟩], ∅⟩ rack ⟨44100, 2⟩ =
        Playback.mixdown ⟨[note ⟨0⟩] ++ [note ⟨0⟩], ∅⟩ rack ⟨44100, 2⟩ := by
  intro rack note
  obtain ⟨-, -, -, gone, unheard⟩ := mixdown_places ⟨[], ∅⟩ rack ⟨44100, 2⟩
  have missing : rack.slots[(⟨1⟩ : PartId)]? = none := by
    rw [Std.ExtTreeMap.getElem?_insert, if_neg (by decide), Std.ExtTreeMap.getElem?_empty]
  have silent := unheard (note ⟨1⟩) (Or.inl missing)
  exact ⟨silent, gone [note ⟨0⟩] (note ⟨1⟩) [note ⟨0⟩] silent⟩

end Songline
