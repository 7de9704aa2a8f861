set_option autoImplicit false

namespace Songline

abbrev Samples := Array Float32

namespace Samples

/-- Appends `n` samples, of which the first has the number `i`. -/
def generateFrom {State : Type} (step : Nat → State → Float × State) :
    Nat → Nat → State → Samples → Samples
  | 0, _, _, out => out
  | n + 1, i, state, out =>
    let (x, state) := step i state
    generateFrom step n (i + 1) state (out.push x.toFloat32)

/-- `n` samples, each made from its number and from a state that is handed on. -/
def generate {State : Type} (n : Nat) (state : State) (step : Nat → State → Float × State) :
    Samples :=
  generateFrom step n 0 state (Array.emptyWithCapacity n)

theorem size_generateFrom {State : Type} (step : Nat → State → Float × State) (n i : Nat)
    (state : State) (out : Samples) :
    (generateFrom step n i state out).size = out.size + n := by
  induction n generalizing i state out with
  | zero => rfl
  | succ n ih =>
    rw [generateFrom, ih, Array.size_push]
    omega

@[simp] theorem size_generate {State : Type} (n : Nat) (state : State)
    (step : Nat → State → Float × State) : (generate n state step).size = n := by
  simp [generate, size_generateFrom]

/-- The same samples in every channel, frame by frame. -/
def interleave (channels : Nat) (mono : Samples) : Samples :=
  mono.foldl (fun out x => (List.range channels).foldl (fun out _ => out.push x) out)
    (Array.emptyWithCapacity (mono.size * channels))

theorem toList_interleave (channels : Nat) (mono : Samples) :
    (interleave channels mono).toList = mono.toList.flatMap (List.replicate channels) := by
  have copied : ∀ (x : Float32) (places : List Nat) (out : Samples),
      (places.foldl (fun out _ => out.push x) out).toList =
        out.toList ++ List.replicate places.length x := by
    intro x places
    induction places with
    | nil => exact fun out => (List.append_nil out.toList).symm
    | cons place places ih =>
        intro out
        rw [List.foldl_cons, ih, Array.toList_push, List.append_assoc]
        rfl
  have listed : ∀ (xs : List Float32) (out : Samples),
      (xs.foldl (fun out x => (List.range channels).foldl (fun out _ => out.push x) out)
        out).toList = out.toList ++ xs.flatMap (List.replicate channels) := by
    intro xs
    induction xs with
    | nil => exact fun out => (List.append_nil out.toList).symm
    | cons x xs ih =>
        intro out
        rw [List.foldl_cons, ih, copied, List.length_range, List.flatMap_cons, List.append_assoc]
  rw [interleave, ← Array.foldl_toList, listed]
  rfl

@[simp] theorem size_interleave (channels : Nat) (mono : Samples) :
    (interleave channels mono).size = mono.size * channels := by
  have lengths : ∀ xs : List Float32,
      (xs.flatMap (List.replicate channels)).length = xs.length * channels := by
    intro xs
    induction xs with
    | nil => exact (Nat.zero_mul channels).symm
    | cons x xs ih =>
        rw [List.flatMap_cons, List.length_append, List.length_replicate, ih, List.length_cons,
          Nat.succ_mul, Nat.add_comm]
  rw [← Array.length_toList, toList_interleave, lengths, Array.length_toList]

/-- In a frame every channel has the one sample. -/
theorem getElem?_interleave (channels : Nat) (mono : Samples) (frame : Nat) {channel : Nat}
    (there : channel < channels) :
    (interleave channels mono)[frame * channels + channel]? = mono[frame]? := by
  have listed : ∀ (xs : List Float32) (frame : Nat),
      (xs.flatMap (List.replicate channels))[frame * channels + channel]? = xs[frame]? := by
    intro xs
    induction xs with
    | nil => exact fun _ => rfl
    | cons x xs ih =>
        intro frame
        rw [List.flatMap_cons]
        cases frame with
        | zero =>
            rw [List.getElem?_append_left (by rw [List.length_replicate]; omega),
              List.getElem?_replicate, if_pos (by omega)]
            rfl
        | succ frame =>
            have next : (frame + 1) * channels + channel =
                channels + (frame * channels + channel) := by
              rw [Nat.succ_mul]
              omega
            rw [next, List.getElem?_append_right (by rw [List.length_replicate]; omega),
              List.length_replicate, Nat.add_sub_cancel_left, ih, List.getElem?_cons_succ]
  rw [← Array.getElem?_toList, toList_interleave, listed, Array.getElem?_toList]

def padTo (size : Nat) (out : Samples) : Samples := out ++ Array.replicate (size - out.size) 0.0

@[simp] theorem size_padTo (size : Nat) (out : Samples) :
    (padTo size out).size = max size out.size := by
  simp only [padTo, Array.size_append, Array.size_replicate]
  omega

/-- What is at a place of a list that has been filled up with silence. -/
theorem getElem?_append_silence (xs : List Float32) (size i : Nat) :
    (xs ++ List.replicate (size - xs.length) 0.0)[i]? =
      if i < size then some (xs[i]?.getD 0.0) else xs[i]? := by
  by_cases there : i < xs.length
  · rw [List.getElem?_append_left there, List.getElem?_eq_getElem there]
    simp only [Option.getD_some, ite_self]
  · have missing : xs[i]? = none := List.getElem?_eq_none (by omega)
    rw [List.getElem?_append_right (by omega), List.getElem?_replicate, missing]
    by_cases padded : i < size
    · rw [if_pos (show i - xs.length < size - xs.length by omega), if_pos padded]
      rfl
    · rw [if_neg (show ¬ i - xs.length < size - xs.length by omega), if_neg padded]

theorem getElem?_padTo (size : Nat) (out : Samples) (i : Nat) :
    (padTo size out)[i]? = if i < size then some (out[i]?.getD 0.0) else out[i]? := by
  have listed : (padTo size out).toList =
      out.toList ++ List.replicate (size - out.toList.length) 0.0 := by
    simp only [padTo, Array.toList_append, Array.toList_replicate, Array.length_toList]
  rw [← Array.getElem?_toList, listed, getElem?_append_silence, Array.getElem?_toList]

/-- Adds samples to those from a place on; all of the places must exist. -/
def addFrom (start : Nat) (samples out : Samples) : Samples :=
  (samples.foldl (fun (out, k) x => (out.modify k (· + x), k + 1)) (out, start)).1

/-- A sample is added to the one at its place, and nothing to those at other places. -/
theorem getElem?_addFrom (start : Nat) (samples out : Samples) (i : Nat) :
    (addFrom start samples out)[i]? =
      if start ≤ i then
        out[i]?.map fun x => match samples[i - start]? with | some y => x + y | none => x
      else out[i]? := by
  have listed : ∀ (ys : List Float32) (k : Nat) (out : Samples),
      (ys.foldl (fun (out, k) y => (out.modify k (· + y), k + 1)) (out, k)).1[i]? =
        if k ≤ i then
          out[i]?.map fun x => match ys[i - k]? with | some y => x + y | none => x
        else out[i]? := by
    intro ys
    induction ys with
    | nil => simp
    | cons y ys ih =>
        intro k out
        rw [List.foldl_cons, ih, Array.getElem?_modify]
        by_cases later : k + 1 ≤ i
        · have next : i - k = i - (k + 1) + 1 := by omega
          rw [if_pos later, if_neg (show ¬ k = i by omega), if_pos (show k ≤ i by omega), next,
            List.getElem?_cons_succ]
        · rw [if_neg later]
          by_cases here : k = i
          · rw [if_pos here, if_pos (show k ≤ i by omega), here, Nat.sub_self]
            rfl
          · rw [if_neg here, if_neg (show ¬ k ≤ i by omega)]
  rw [addFrom, ← Array.foldl_toList, listed]
  simp only [Array.getElem?_toList]

@[simp] theorem size_addFrom (start : Nat) (samples out : Samples) :
    (addFrom start samples out).size = out.size := by
  have listed : ∀ (ys : List Float32) (k : Nat) (out : Samples),
      (ys.foldl (fun (out, k) y => (out.modify k (· + y), k + 1)) (out, k)).1.size = out.size := by
    intro ys
    induction ys with
    | nil => exact fun _ _ => rfl
    | cons y ys ih =>
        intro k out
        rw [List.foldl_cons, ih, Array.size_modify]
  rw [addFrom, ← Array.foldl_toList, listed]

/-- Adds samples to those from a place on, with silence where there is nothing yet. -/
def mixAt (start : Nat) (samples out : Samples) : Samples :=
  addFrom start samples (padTo (start + samples.size) out)

@[simp] theorem size_mixAt (start : Nat) (samples out : Samples) :
    (mixAt start samples out).size = max (start + samples.size) out.size := by
  rw [mixAt, size_addFrom, size_padTo]

/-- What is at a place after samples have been mixed in `i` places before it. -/
theorem getElem?_mixAt (start : Nat) (samples out : Samples) (i : Nat) :
    (mixAt start samples out)[start + i]? =
      match samples[i]? with
      | some y => some (out[start + i]?.getD 0.0 + y)
      | none => out[start + i]? := by
  rw [mixAt, getElem?_addFrom, if_pos (Nat.le_add_right start i), Nat.add_sub_cancel_left,
    getElem?_padTo]
  cases sample : samples[i]? with
  | none =>
      have outside : ¬ start + i < start + samples.size := by
        have := Array.getElem?_eq_none_iff.mp sample
        omega
      rw [if_neg outside]
      exact Option.map_id'
  | some y =>
      have inside : start + i < start + samples.size := by
        obtain ⟨bound, -⟩ := Array.getElem?_eq_some_iff.mp sample
        omega
      rw [if_pos inside]
      rfl

/-- Before the place where samples are mixed in, there may be more silence, and nothing else is
new. -/
theorem getElem?_mixAt_before (start : Nat) (samples out : Samples) {i : Nat} (before : i < start) :
    (mixAt start samples out)[i]? =
      if i < start + samples.size then some (out[i]?.getD 0.0) else out[i]? := by
  rw [mixAt, getElem?_addFrom, if_neg (Nat.not_le_of_lt before), getElem?_padTo]

end Samples

end Songline
