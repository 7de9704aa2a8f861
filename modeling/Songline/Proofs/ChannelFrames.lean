import Songline.Sound.Rack

set_option autoImplicit false

namespace Songline

namespace Samples

theorem interleave_none (mono : Samples) : interleave 0 mono = #[] := by
  apply Array.eq_empty_of_size_eq_zero
  rw [size_interleave, Nat.mul_zero]

/-- Buffers with a sample for each channel of each frame are compared frame by frame. -/
theorem eq_interleave_of_frames {channels : Nat} (positive : 0 < channels) {out mono : Samples}
    (same : ∀ frame channel, channel < channels →
      out[frame * channels + channel]? = mono[frame]?) : out = interleave channels mono := by
  apply Array.ext_getElem?
  intro k
  have inside : k % channels < channels := Nat.mod_lt k positive
  have split : k / channels * channels + k % channels = k := Nat.div_add_mod' k channels
  rw [← split, same _ _ inside, getElem?_interleave channels mono _ inside]

theorem interleave_single (mono : Samples) : interleave 1 mono = mono := by
  symm
  apply eq_interleave_of_frames Nat.one_pos
  intro frame channel only
  have first : frame * 1 + channel = frame := by omega
  rw [first]

theorem isEmpty_interleave {channels : Nat} (positive : 0 < channels) (mono : Samples) :
    (interleave channels mono).isEmpty = mono.isEmpty := by
  have product : mono.size * channels = 0 ↔ mono.size = 0 := by
    rw [Nat.mul_eq_zero]
    omega
  simp only [Array.isEmpty, size_interleave, product]

/-- Frames that are mixed in at the beginning of a frame are mixed with whole frames. -/
theorem mixAt_interleave {channels : Nat} (positive : 0 < channels) (start : Nat)
    (mono out : Samples) :
    mixAt (start * channels) (interleave channels mono) (interleave channels out) =
      interleave channels (mixAt start mono out) := by
  apply eq_interleave_of_frames positive
  intro frame channel there
  by_cases before : frame < start
  · have reached : (frame + 1) * channels ≤ start * channels :=
      Nat.mul_le_mul_right channels before
    rw [Nat.succ_mul] at reached
    have covered : frame * channels + channel < start * channels + mono.size * channels := by omega
    have covered' : frame < start + mono.size := by omega
    rw [getElem?_mixAt_before _ _ _ (by omega), getElem?_mixAt_before _ _ _ before,
      size_interleave, if_pos covered, if_pos covered', getElem?_interleave _ _ _ there]
  · obtain ⟨later, rfl⟩ : ∃ later, frame = start + later := ⟨frame - start, by omega⟩
    have place : (start + later) * channels + channel =
        start * channels + (later * channels + channel) := by
      rw [Nat.add_mul, Nat.add_assoc]
    have earlier := getElem?_interleave channels out (start + later) there
    rw [place] at earlier
    rw [place, getElem?_mixAt, getElem?_mixAt, earlier, getElem?_interleave _ _ _ there]

end Samples

/-- A sound in several channels is the sound in one, copied. -/
theorem Rack.render_interleave (r : Rack) (e : Event) (rate : UInt32) (channels : UInt16) :
    r.render e ⟨rate, channels⟩ = Samples.interleave channels.toNat (r.render e ⟨rate, 1⟩) := by
  unfold render
  cases r.slots[e.part]? with
  | none => rfl
  | some slot =>
      have single : slot.synth.render e ⟨rate, 1⟩ = slot.synth.mono e rate :=
        Samples.interleave_single (slot.synth.mono e rate)
      simp only [single]
      rfl

namespace Mixdown

/-- An event is added to all channels as it is to one. -/
theorem addEvent_interleave (rack : Rack) (rate : UInt32) (channels : UInt16) (out : Samples)
    (e : Event) :
    addEvent rack ⟨rate, channels⟩ (Samples.interleave channels.toNat out) e =
      Samples.interleave channels.toNat (addEvent rack ⟨rate, 1⟩ out e) := by
  simp only [addEvent]
  rw [rack.render_interleave e rate channels]
  rcases Nat.eq_zero_or_pos channels.toNat with none | positive
  · simp only [none, Samples.interleave_none]
    rfl
  · rw [Samples.isEmpty_interleave positive]
    by_cases unheard : (rack.render e ⟨rate, 1⟩).isEmpty
    · rw [if_pos unheard, if_pos unheard]
    · have frame : place ⟨rate, channels⟩ e = place ⟨rate, 1⟩ e * channels.toNat := by
        simp only [place, UInt16.toNat_one, Nat.mul_one]
      rw [if_neg unheard, if_neg unheard, frame, Samples.mixAt_interleave positive]

end Mixdown

theorem Playback.mixdown_interleave (p : Playback) (rack : Rack) (rate : UInt32)
    (channels : UInt16) :
    p.mixdown rack ⟨rate, channels⟩ =
      Samples.interleave channels.toNat (p.mixdown rack ⟨rate, 1⟩) := by
  have folded : ∀ (events : List Event) (out : Samples),
      events.foldl (Mixdown.addEvent rack ⟨rate, channels⟩)
          (Samples.interleave channels.toNat out) =
        Samples.interleave channels.toNat
          (events.foldl (Mixdown.addEvent rack ⟨rate, 1⟩) out) := by
    intro events
    induction events with
    | nil => exact fun _ => rfl
    | cons e events ih =>
        intro out
        rw [List.foldl_cons, List.foldl_cons, Mixdown.addEvent_interleave, ih]
  exact folded p.events #[]

/-- Whatever is loaded and whatever is played, a mixdown has a whole number of frames, and all
channels have the same sample in each of them: the one that a mixdown of one channel has there. -/
theorem Playback.channels_agree (p : Playback) (rack : Rack) (format : SoundFormat) :
    let out := p.mixdown rack format
    let channels := format.channels.toNat
    let mono := p.mixdown rack ⟨format.rate, 1⟩
    channels ∣ out.size ∧ out.size = mono.size * channels ∧
      (∀ (frame : Nat) (a b : Fin channels),
        out[frame * channels + a]? = out[frame * channels + b]?) ∧
      ∀ (frame : Nat) (a : Fin channels), out[frame * channels + a]? = mono[frame]? := by
  intro out channels mono
  have whole : out = Samples.interleave channels mono :=
    p.mixdown_interleave rack format.rate format.channels
  have size : out.size = mono.size * channels := by rw [whole, Samples.size_interleave]
  have each : ∀ (frame : Nat) (a : Fin channels),
      out[frame * channels + a]? = mono[frame]? := by
    intro frame a
    rw [whole, Samples.getElem?_interleave channels mono frame a.isLt]
  refine ⟨⟨mono.size, ?_⟩, size, ?_, each⟩
  · rw [size, Nat.mul_comm]
  · intro frame a b
    rw [each frame a, each frame b]

end Songline
