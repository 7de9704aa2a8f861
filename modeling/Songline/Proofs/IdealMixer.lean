import Songline.Output.Mixer

set_option autoImplicit false

namespace Songline

/-- The samples still to be played, the next one first, and the volume. -/
structure IdealMixer where
  unplayed : List Float32
  volume : Float32

namespace IdealMixer

def fresh : IdealMixer := ⟨[], 1.0⟩

/-- Samples added one to one, with silence where there are too few of the first. -/
def add (unplayed samples : List Float32) : List Float32 :=
  let padded := unplayed ++ List.replicate (samples.length - unplayed.length) 0.0
  List.zipWith (· + ·) padded samples ++ padded.drop samples.length

def carryOut (m : IdealMixer) : Mixer.Command → IdealMixer
  | .mix samples => { m with unplayed := add m.unplayed samples.toList }
  | .volume gain => { m with volume := Number.clampUnit gain }
  | .silence => { m with unplayed := [] }

def heed (stop : Bool) (m : IdealMixer) : IdealMixer :=
  if stop then { m with unplayed := [] } else m

/-- What is heard at a place from now: a sample at the volume, or silence after the last one. -/
def heard (m : IdealMixer) (i : Nat) : Float32 :=
  match m.unplayed[i]? with
  | some x => Limiter.standard.limit (x * m.volume)
  | none => Limiter.standard.limit 0.0

/-- The next `n` samples, after which they are gone. -/
def play (m : IdealMixer) (n : Nat) : Samples × IdealMixer :=
  (Array.ofFn fun i : Fin n => m.heard i,
    { m with unplayed := m.unplayed.drop (min n m.unplayed.length) })

/-- What is at a place after samples have been added. -/
theorem getElem?_add (unplayed samples : List Float32) (i : Nat) :
    (add unplayed samples)[i]? =
      match samples[i]? with
      | some y => some (unplayed[i]?.getD 0.0 + y)
      | none => unplayed[i]? := by
  have padded := Samples.getElem?_append_silence unplayed samples.length
  have covered : samples.length ≤
      (unplayed ++ List.replicate (samples.length - unplayed.length) 0.0).length := by
    rw [List.length_append, List.length_replicate]
    omega
  have added : (List.zipWith (· + ·)
      (unplayed ++ List.replicate (samples.length - unplayed.length) 0.0) samples).length =
        samples.length := by
    rw [List.length_zipWith, Nat.min_eq_right covered]
  by_cases inside : i < samples.length
  · rw [add, List.getElem?_append_left (by omega), List.getElem?_zipWith, padded, if_pos inside,
      List.getElem?_eq_getElem inside]
  · have place : samples.length + (i - samples.length) = i := by omega
    rw [add, List.getElem?_append_right (by omega), added, List.getElem?_drop, place, padded,
      if_neg inside, List.getElem?_eq_none (show samples.length ≤ i by omega)]

/-- What is heard from a place on is what the mixer plays that has come so far. -/
theorem heard_play (m : IdealMixer) (n i : Nat) : (m.play n).2.heard i = m.heard (n + i) := by
  have left : (m.play n).2.unplayed[i]? = m.unplayed[n + i]? := by
    rw [play, List.getElem?_drop]
    by_cases enough : n ≤ m.unplayed.length
    · rw [Nat.min_eq_left enough]
    · rw [List.getElem?_eq_none (by omega), List.getElem?_eq_none (by omega)]
  unfold heard
  rw [left]
  rfl

/-- Two calls for samples are one call for as many. -/
theorem play_add (m : IdealMixer) (n₁ n₂ : Nat) :
    m.play (n₁ + n₂) = ((m.play n₁).1 ++ ((m.play n₁).2.play n₂).1, ((m.play n₁).2.play n₂).2) := by
  apply Prod.ext
  · show (m.play (n₁ + n₂)).1 = (m.play n₁).1 ++ ((m.play n₁).2.play n₂).1
    apply Array.ext_getElem?
    intro i
    simp only [play, Array.getElem?_append, Array.getElem?_ofFn, Array.size_ofFn]
    by_cases early : i < n₁
    · rw [if_pos early, dif_pos early, dif_pos (show i < n₁ + n₂ by omega)]
    · rw [if_neg early]
      by_cases late : i - n₁ < n₂
      -- A place behind the first call is a place of what that call has left.
      · have place : n₁ + (i - n₁) = i := by omega
        have shifted := heard_play m n₁ (i - n₁)
        rw [place] at shifted
        rw [dif_pos late, dif_pos (show i < n₁ + n₂ by omega)]
        exact congrArg some shifted.symm
      · rw [dif_neg late, dif_neg (show ¬ i < n₁ + n₂ by omega)]
  · have gone : min (n₁ + n₂) m.unplayed.length =
        min n₁ m.unplayed.length +
          min n₂ (m.unplayed.length - min n₁ m.unplayed.length) := by
      omega
    simp only [play, List.length_drop, List.drop_drop, gone]

end IdealMixer

namespace Mixer

/-- No more has been played than there is. -/
def Within (m : Mixer) : Prop := m.position ≤ m.buffer.size

/-- A mixer without what has been played. -/
def ideal (m : Mixer) : IdealMixer := ⟨m.unplayed.toList, m.volume⟩

theorem getElem?_unplayed (m : Mixer) (i : Nat) :
    m.ideal.unplayed[i]? = m.buffer[m.position + i]? := by
  rw [ideal, Array.getElem?_toList, unplayed, Array.getElem?_extract]
  by_cases inside : i < min m.buffer.size m.buffer.size - m.position
  · rw [if_pos inside]
  · rw [if_neg inside, Array.getElem?_eq_none (by omega)]

theorem length_unplayed (m : Mixer) : m.ideal.unplayed.length = m.remaining := by
  simp [ideal, unplayed, remaining]

theorem ideal_carryOut (m : Mixer) (c : Command) : (m.carryOut c).ideal = m.ideal.carryOut c := by
  cases c with
  | mix samples =>
      have added : (m.carryOut (.mix samples)).ideal.unplayed =
          IdealMixer.add m.ideal.unplayed samples.toList := by
        apply List.ext_getElem?
        intro i
        rw [getElem?_unplayed, IdealMixer.getElem?_add, getElem?_unplayed, Array.getElem?_toList]
        exact Samples.getElem?_mixAt m.position samples m.buffer i
      exact congrArg (IdealMixer.mk · m.volume) added
  | volume gain => rfl
  | silence => rfl

theorem ideal_heed (stop : Bool) (m : Mixer) : (m.heed stop).ideal = m.ideal.heed stop := by
  cases stop <;> rfl

/-- What waits is carried out in its order. -/
theorem ideal_carryOutAll (commands : List Command) (m : Mixer) :
    (commands.foldl carryOut m).ideal = commands.foldl IdealMixer.carryOut m.ideal := by
  induction commands generalizing m with
  | nil => rfl
  | cons c commands ih => rw [List.foldl_cons, List.foldl_cons, ih, ideal_carryOut]

theorem ideal_play (m : Mixer) (n : Nat) :
    ((m.play n).1, (m.play n).2.ideal) = m.ideal.play n := by
  have left : m.ideal.unplayed.length = m.buffer.size - m.position := m.length_unplayed
  apply Prod.ext
  · show (m.play n).1 = (m.ideal.play n).1
    apply Array.ext_getElem?
    intro i
    simp only [play, IdealMixer.play, Array.getElem?_map, Samples.getElem?_padTo,
      Array.getElem?_extract, Array.getElem?_ofFn, IdealMixer.heard, getElem?_unplayed]
    by_cases asked : i < n
    · rw [if_pos asked, dif_pos asked]
      by_cases there : m.position + i < m.buffer.size
      · rw [if_pos (show i < min (m.position + n) m.buffer.size - m.position by omega),
          Array.getElem?_eq_getElem there]
        rfl
      · rw [if_neg (show ¬ i < min (m.position + n) m.buffer.size - m.position by omega),
          Array.getElem?_eq_none (by omega)]
        rfl
    · rw [if_neg asked, dif_neg asked,
        if_neg (show ¬ i < min (m.position + n) m.buffer.size - m.position by omega)]
      rfl
  -- The position moves by as much as there was to play, and so the ideal mixer drops as much.
  · have unplayed : (m.play n).2.ideal.unplayed =
        m.ideal.unplayed.drop (min n m.ideal.unplayed.length) := by
      apply List.ext_getElem?
      intro i
      have place : m.position + (min (m.position + n) m.buffer.size - m.position) + i =
          m.position + (min n (m.buffer.size - m.position) + i) := by
        omega
      rw [getElem?_unplayed, List.getElem?_drop, getElem?_unplayed, left, ← place, play,
        Array.size_extract]
    exact congrArg (IdealMixer.mk · m.volume) unplayed

/-- Drops what has been played, if so much has been played that it is `due`. -/
def compactWhen (due : Nat → Bool) (m : Mixer) : Mixer :=
  if due m.position then { m with buffer := m.unplayed, position := 0 } else m

theorem compact_eq_compactWhen (m : Mixer) :
    m.compact = m.compactWhen fun played => decide (keepAtMost ≤ played) := by
  unfold compact compactWhen
  by_cases few : m.position < keepAtMost
  · rw [if_pos few, if_neg (by simp only [decide_eq_true_eq]; omega)]
  · rw [if_neg few, if_pos (by simp only [decide_eq_true_eq]; omega)]

/-- Whenever the played part is dropped, this makes no difference to what follows. -/
theorem ideal_compactWhen (due : Nat → Bool) (m : Mixer) : (m.compactWhen due).ideal = m.ideal := by
  unfold compactWhen
  cases due m.position with
  | false => rfl
  | true =>
      have all : m.unplayed.extract 0 m.unplayed.size = m.unplayed := Array.extract_size
      simp only [↓reduceIte, ideal]
      exact congrArg (fun samples => IdealMixer.mk samples.toList m.volume) all

theorem within_carryOut (m : Mixer) (c : Command) (within : m.Within) : (m.carryOut c).Within := by
  cases c with
  | mix samples =>
      simp only [Within, carryOut, Samples.size_mixAt] at within ⊢
      omega
  | volume gain => exact within
  | silence => exact Nat.le_refl 0

theorem within_carryOutAll (commands : List Command) (m : Mixer) (within : m.Within) :
    (commands.foldl carryOut m).Within := by
  induction commands generalizing m with
  | nil => exact within
  | cons c commands ih => exact ih (m.carryOut c) (within_carryOut m c within)

theorem within_heed (stop : Bool) (m : Mixer) (within : m.Within) : (m.heed stop).Within := by
  cases stop with
  | false => exact within
  | true => exact Nat.le_refl 0

theorem within_play (m : Mixer) (n : Nat) (within : m.Within) : (m.play n).2.Within := by
  simp only [Within, play, Array.size_extract] at within ⊢
  omega

theorem within_compact (m : Mixer) (within : m.Within) : m.compact.Within := by
  unfold compact
  split
  · exact within
  · exact Nat.zero_le _

end Mixer

end Songline
