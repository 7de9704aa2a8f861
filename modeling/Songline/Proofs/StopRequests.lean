import Mathlib.Algebra.Ring.Nat
import Mathlib.Data.List.Induction
import Songline.Proofs.DeckRuns

set_option autoImplicit false

/- How far a request to stop reaches. It is a flag, and the music comes by a queue: when samples are
asked for, what waits in the queue is taken up first, and then the flag is looked at. So a request
drops what was there when it was made, and also what is handed over between it and the next call for
samples.

What is still heard of each mix is read off the log of a run: the acts with their answers. -/
namespace Songline

namespace IdealMixer

/-- What is heard later of samples that are added is what they are later, added. -/
theorem drop_add (unplayed samples : List Float32) (n : Nat) :
    (add unplayed samples).drop n = add (unplayed.drop n) (samples.drop n) := by
  apply List.ext_getElem?
  intro i
  simp only [List.getElem?_drop, getElem?_add]

theorem drop_foldl_add (mixes : List (List Float32)) (unplayed : List Float32) (n : Nat) :
    (mixes.foldl add unplayed).drop n = (mixes.map (·.drop n)).foldl add (unplayed.drop n) := by
  induction mixes generalizing unplayed with
  | nil => rfl
  | cons samples mixes ih => rw [List.foldl_cons, ih, drop_add, List.map_cons, List.foldl_cons]

/-- At each place the samples that are there are added to one another. -/
theorem getElem?_foldl_add (mixes : List (List Float32)) (unplayed : List Float32) (i : Nat) :
    (mixes.foldl add unplayed)[i]? =
      match mixes.filterMap (·[i]?) with
      | [] => unplayed[i]?
      | xs => some (xs.foldl (· + ·) (unplayed[i]?.getD 0.0)) := by
  induction mixes generalizing unplayed with
  | nil => rfl
  | cons samples mixes ih =>
      rw [List.foldl_cons, ih, getElem?_add]
      cases sample : samples[i]? with
      | none =>
          have skipped : (samples :: mixes).filterMap (·[i]?) = mixes.filterMap (·[i]?) :=
            List.filterMap_cons_none sample
          rw [skipped]
      | some x =>
          have first : (samples :: mixes).filterMap (·[i]?) = x :: mixes.filterMap (·[i]?) :=
            List.filterMap_cons_some sample
          rw [first]
          cases mixes.filterMap (·[i]?) with
          | nil => rfl
          | cons y ys => rfl

end IdealMixer

namespace Deck

/-- What has been done with a deck, and its answers. -/
abbrev Log := List (Act × Answer)

section Logs

def asked (log : Log) : Nat :=
  (log.map fun
    | (.process n, _) => n
    | _ => 0).sum

def volume (log : Log) : Float32 :=
  log.foldl (fun volume entry =>
    match entry with
    | (.command (.volume gain), .taken) => Number.clampUnit gain
    | _ => volume) 1.0

/-- Whether a request to stop stands: none has asked for samples since. -/
def requested (stop : Bool) (log : Log) : Bool :=
  log.foldl (fun stands entry =>
    match entry.1 with
    | .stop => true
    | .process _ => false
    | .command _ => stands) stop

/-- Whether an entry says that what was there is to be dropped. -/
def silences : Act × Answer → Bool
  | (.stop, _) => true
  | (.command .silence, .taken) => true
  | _ => false

/-- What is still to be heard of an entry: if it is a mix, the samples that nobody has asked for
yet. There is nothing if it is silenced later, or if something in the past `covers` it. -/
def rest (covers : Log → Bool) (past : Log) (entry : Act × Answer) (later : Log) :
    Option (List Float32) :=
  match entry with
  | (.command (.mix samples), .taken) =>
    if covers past || later.any silences then none else some (samples.toList.drop (asked later))
  | _ => none

/-- What is still to be heard of each mix, the first one first. -/
def sounding (covers : Log → Bool) (past : Log) : Log → List (List Float32)
  | [] => []
  | entry :: later =>
    (rest covers past entry later).toList ++ sounding covers (past ++ [entry]) later

/-- What is heard at a place: the sum of what the mixes have there at the volume, or silence. -/
def heard (volume : Float32) (mixes : List (List Float32)) (i : Nat) : Float32 :=
  match mixes.filterMap (·[i]?) with
  | [] => Limiter.standard.limit 0.0
  | xs => Limiter.standard.limit (xs.foldl (· + ·) 0.0 * volume)

theorem heard_eq (mixes : List (List Float32)) (volume : Float32) (i : Nat) :
    IdealMixer.heard ⟨mixes.foldl IdealMixer.add [], volume⟩ i = heard volume mixes i := by
  unfold IdealMixer.heard heard
  simp only [IdealMixer.getElem?_foldl_add]
  cases mixes.filterMap (·[i]?) <;> rfl

theorem asked_concat (log : Log) (entry : Act × Answer) :
    asked (log ++ [entry]) = asked log + asked [entry] := by
  simp only [asked, List.map_append, List.sum_append]

theorem requested_concat (stop : Bool) (log : Log) (entry : Act × Answer) :
    requested stop (log ++ [entry]) = requested (requested stop log) [entry] :=
  List.foldl_append

theorem volume_concat (log : Log) (entry : Act × Answer) :
    volume (log ++ [entry]) =
      match entry with
      | (.command (.volume gain), .taken) => Number.clampUnit gain
      | _ => volume log :=
  List.foldl_append

/-- What one more entry leaves of what was still to be heard. -/
def onward (entry : Act × Answer) (samples : List Float32) : Option (List Float32) :=
  if silences entry then none else some (samples.drop (asked [entry]))

theorem rest_concat (covers : Log → Bool) (past later : Log) (mix entry : Act × Answer) :
    rest covers past mix (later ++ [entry]) = (rest covers past mix later).bind (onward entry) := by
  unfold rest
  split
  · rename_i samples
    rw [List.any_append, List.any_cons, List.any_nil, Bool.or_false, ← Bool.or_assoc]
    cases covers past || later.any silences with
    | true => rfl
    | false =>
        unfold onward
        cases silences entry with
        | true => rfl
        | false =>
            have left : samples.toList.drop (asked (later ++ [entry])) =
                (samples.toList.drop (asked later)).drop (asked [entry]) := by
              rw [asked_concat, List.drop_drop]
            simp only [Bool.or_false, Bool.false_eq_true, ↓reduceIte, Option.bind_some, left]
  · rfl

theorem sounding_concat (covers : Log → Bool) (past log : Log) (entry : Act × Answer) :
    sounding covers past (log ++ [entry]) =
      (sounding covers past log).filterMap (onward entry) ++
        (rest covers (past ++ log) entry []).toList := by
  induction log generalizing past with
  | nil =>
      rw [List.append_nil]
      exact List.append_nil _
  | cons first log ih =>
      have onwards : ((rest covers past first log).bind (onward entry)).toList =
          (rest covers past first log).toList.filterMap (onward entry) := by
        cases rest covers past first log with
        | none => rfl
        | some samples => cases kept : onward entry samples <;> simp [kept]
      rw [List.cons_append, sounding, rest_concat, ih, onwards, sounding, List.filterMap_append,
        List.append_assoc, List.append_assoc]
      rfl

theorem rest_mix (covers : Log → Bool) (past : Log) (samples : Samples) :
    rest covers past (.command (.mix samples), .taken) [] =
      if covers past then none else some samples.toList := by
  rw [rest, List.any_nil, Bool.or_false]
  rfl

/-- After a request, or a command to be silent, nothing is to be heard. -/
theorem sounding_silenced (covers : Log → Bool) (log : Log) {entry : Act × Answer}
    (silenced : silences entry = true) : sounding covers [] (log ++ [entry]) = [] := by
  have none : ∀ samples, onward entry samples = none := fun _ => if_pos silenced
  have mixless : rest covers ([] ++ log) entry [] = Option.none := by
    unfold rest
    split
    · cases silenced
    · rfl
  rw [sounding_concat, mixless, List.filterMap_eq_nil_iff.mpr fun samples _ => none samples]
  rfl

/-- An entry that does not silence and asks for nothing leaves all that there was. -/
theorem sounding_kept (covers : Log → Bool) (log : Log) {entry : Act × Answer}
    (kept : silences entry = false) (quiet : asked [entry] = 0) :
    sounding covers [] (log ++ [entry]) =
      sounding covers [] log ++ (rest covers log entry []).toList := by
  have same : onward entry = some := by
    funext samples
    rw [onward, kept, quiet]
    rfl
  rw [sounding_concat, same, List.filterMap_some, List.nil_append]

theorem sounding_played (covers : Log → Bool) (log : Log) (n : Nat) (answer : Answer) :
    sounding covers [] (log ++ [(.process n, answer)]) =
      (sounding covers [] log).map (·.drop n) := by
  have later : onward (.process n, answer) = some ∘ (·.drop n) := by
    funext samples
    simp [onward, silences, asked]
  rw [sounding_concat, later, List.filterMap_eq_map]
  exact List.append_nil _

end Logs

section Hearing

/-- The mixer as a call for samples would find it. -/
def ready (s : IdealStream × Mixer.Flags) : IdealMixer :=
  (s.1.queue.waiting.foldl IdealMixer.carryOut s.1.mixer).heed s.2.stop

/-- A deck is about to play what its log says is still to be heard. -/
structure Hears (stop : Bool) (s : IdealStream × Mixer.Flags) (log : Log) : Prop where
  stands : s.2.stop = requested stop log
  loud : (s.1.queue.waiting.foldl IdealMixer.carryOut s.1.mixer).volume = volume log
  unplayed : (ready s).unplayed =
    (sounding (requested stop) [] log).foldl IdealMixer.add []

theorem Hears.play {stop : Bool} {s : IdealStream × Mixer.Flags} {log : Log}
    (hears : Hears stop s log) (n : Nat) :
    (ideal.process s n).1 =
      Array.ofFn fun i : Fin n => heard (volume log) (sounding (requested stop) [] log) i := by
  have found : ready s =
      ⟨(sounding (requested stop) [] log).foldl IdealMixer.add [], volume log⟩ := by
    have loud : (ready s).volume = volume log := by
      rw [← hears.loud, ready]
      cases s.2.stop <;> rfl
    rw [← hears.unplayed, ← loud]
  show Array.ofFn (fun i : Fin n => (ready s).heard i) = _
  simp only [found, heard_eq]

/-- A command that is taken waits behind the others. -/
theorem push_cases {s t : IdealStream × Mixer.Flags} {c : Mixer.Command}
    (taken : ideal.push? s c = some t) :
    t.2 = s.2 ∧ t.1.mixer = s.1.mixer ∧ t.1.queue.waiting = s.1.queue.waiting ++ [c] := by
  simp only [ideal, sharing, IdealStream.push?, Mixer.Queue.push?] at taken
  split at taken
  · cases taken
    exact ⟨rfl, rfl, rfl⟩
  · cases taken

theorem Hears.taken {stop : Bool} {s t : IdealStream × Mixer.Flags} {log : Log}
    {c : Mixer.Command} (hears : Hears stop s log) (push : ideal.push? s c = some t) :
    Hears stop t (log ++ [(.command c, .taken)]) := by
  obtain ⟨flags, mixer, waiting⟩ := push_cases push
  have carried : t.1.queue.waiting.foldl IdealMixer.carryOut t.1.mixer =
      (s.1.queue.waiting.foldl IdealMixer.carryOut s.1.mixer).carryOut c := by
    rw [mixer, waiting, List.foldl_append, List.foldl_cons, List.foldl_nil]
  refine ⟨?_, ?_, ?_⟩
  · rw [flags, hears.stands, requested_concat]
    rfl
  · rw [carried, volume_concat]
    cases c with
    | volume gain => rfl
    | mix samples => exact hears.loud
    | silence => exact hears.loud
  · have unplayed := hears.unplayed
    rw [ready] at unplayed
    rw [ready, carried, flags]
    cases c with
    | mix samples =>
        rw [sounding_kept (requested stop) log rfl rfl, rest_mix, ← hears.stands]
        cases stands : s.2.stop with
        -- What is mixed in now is dropped with the rest.
        | true =>
            rw [stands] at unplayed
            rw [if_pos rfl, Option.toList_none, List.append_nil]
            exact unplayed
        | false =>
            rw [stands] at unplayed
            rw [if_neg Bool.false_ne_true, Option.toList_some, List.foldl_append, ← unplayed]
            rfl
    | volume gain =>
        have mixless : rest (requested stop) log (.command (.volume gain), .taken) [] = none := rfl
        rw [sounding_kept (requested stop) log rfl rfl, mixless, Option.toList_none,
          List.append_nil, ← unplayed]
        cases s.2.stop <;> rfl
    | silence =>
        rw [sounding_silenced (requested stop) log rfl]
        cases s.2.stop <;> rfl

/-- A command that is refused is as if it had not been given. -/
theorem Hears.refused {stop : Bool} {s : IdealStream × Mixer.Flags} {log : Log}
    (hears : Hears stop s log) (c : Mixer.Command) :
    Hears stop s (log ++ [(.command c, .refused)]) := by
  have kept : silences (.command c, .refused) = false := by cases c <;> rfl
  have mixless : rest (requested stop) log (.command c, .refused) [] = none := by cases c <;> rfl
  refine ⟨?_, ?_, ?_⟩
  · rw [requested_concat]
    exact hears.stands
  · rw [volume_concat]
    cases c <;> exact hears.loud
  · rw [sounding_kept (requested stop) log kept rfl, mixless, Option.toList_none, List.append_nil]
    exact hears.unplayed

theorem Hears.act {stop : Bool} {s : IdealStream × Mixer.Flags} {log : Log}
    (hears : Hears stop s log) (a : Act) :
    Hears stop (ideal.act s a).2 (log ++ [(a, (ideal.act s a).1)]) := by
  cases a with
  | command c =>
      cases push : ideal.push? s c with
      | some t =>
          have taken : ideal.act s (.command c) = (.taken, t) := by simp only [Deck.act, push]
          rw [taken]
          exact hears.taken push
      | none =>
          have refused : ideal.act s (.command c) = (.refused, s) := by simp only [Deck.act, push]
          rw [refused]
          exact hears.refused c
  | stop =>
      refine ⟨?_, ?_, ?_⟩
      · rw [requested_concat]
        rfl
      · rw [volume_concat]
        exact hears.loud
      · rw [sounding_silenced (requested stop) log rfl]
        rfl
  | process n =>
      refine ⟨?_, ?_, ?_⟩
      · rw [requested_concat]
        rfl
      · rw [volume_concat, ← hears.loud]
        show ((ready s).play n).2.volume = _
        rw [ready]
        cases s.2.stop <;> rfl
      · have left := IdealMixer.drop_foldl_add (sounding (requested stop) [] log) [] n
        rw [List.drop_nil, ← hears.unplayed] at left
        rw [sounding_played, ← left]
        exact List.drop_eq_drop_min.symm

theorem hears_run (acts : List Act) {stop : Bool} {s : IdealStream × Mixer.Flags}
    (first : Hears stop s []) :
    Hears stop (ideal.run acts s).2 (acts.zip (ideal.run acts s).1) := by
  -- The log grows at its end, so the induction goes by the last act.
  induction acts using List.reverseRecOn with
  | nil => exact first
  | append_singleton acts a ih =>
      rw [run_concat, List.zip_append (length_run ideal acts s).symm]
      exact ih.act a

theorem hears_start (capacity : Nat) (flags : Mixer.Flags) :
    Hears flags.stop (IdealStream.ofCapacity capacity, flags) [] where
  stands := rfl
  loud := rfl
  unplayed := by
    show (IdealMixer.heed flags.stop IdealMixer.fresh).unplayed = []
    cases flags.stop <;> rfl

end Hearing

section Reach

/-- The past in which a request covers nothing that comes after it. -/
def never (_ : Log) : Bool := false

theorem rest_eq_iff (covers : Log → Bool) (past later : Log) (entry : Act × Answer) :
    rest covers past entry later = rest never past entry later ↔
      ∀ samples, entry = (.command (.mix samples), .taken) →
        covers past = true → later.any silences = true := by
  unfold rest
  split
  · rename_i samples
    cases covers past <;> cases later.any silences <;> simp [never]
  · rename_i mixless
    simp only [true_iff]
    intro samples same
    exact absurd same (mixless samples)

theorem length_rest_le (covers : Log → Bool) (past later : Log) (entry : Act × Answer) :
    (rest covers past entry later).toList.length ≤ (rest never past entry later).toList.length := by
  unfold rest
  split
  · cases covers past <;> cases later.any silences <;> simp [never]
  · exact Nat.le_refl _

theorem length_sounding_le (covers : Log → Bool) (past log : Log) :
    (sounding covers past log).length ≤ (sounding never past log).length := by
  induction log generalizing past with
  | nil => exact Nat.le_refl 0
  | cons entry log ih =>
      simp only [sounding, List.length_append]
      exact Nat.add_le_add (length_rest_le covers past log entry) (ih (past ++ [entry]))

/-- Covering makes no difference exactly if what is covered is silenced later anyway. -/
theorem sounding_eq_iff (covers : Log → Bool) (past log : Log) :
    sounding covers past log = sounding never past log ↔
      ∀ earlier samples later, log = earlier ++ (.command (.mix samples), .taken) :: later →
        covers (past ++ earlier) = true → later.any silences = true := by
  induction log generalizing past with
  | nil => simp [sounding]
  | cons entry log ih =>
      have firstLess := length_rest_le covers past log entry
      have laterLess := length_sounding_le covers (past ++ [entry]) log
      have apart : sounding covers past (entry :: log) = sounding never past (entry :: log) ↔
          rest covers past entry log = rest never past entry log ∧
            sounding covers (past ++ [entry]) log = sounding never (past ++ [entry]) log := by
        constructor
        · intro same
          have lengths := congrArg List.length same
          simp only [sounding, List.length_append] at lengths
          obtain ⟨first, later⟩ := List.append_inj same (by omega)
          have heads := congrArg List.head? first
          rw [Option.head?_toList, Option.head?_toList] at heads
          exact ⟨heads, later⟩
        · rintro ⟨first, later⟩
          rw [sounding, sounding, first, later]
      rw [apart, rest_eq_iff, ih]
      constructor
      · rintro ⟨first, later⟩ earlier samples rest split covered
        cases earlier with
        | nil =>
            rw [List.nil_append] at split
            obtain ⟨rfl, rfl⟩ := List.cons_eq_cons.mp split
            rw [List.append_nil] at covered
            exact first samples rfl covered
        | cons other earlier =>
            obtain ⟨rfl, rfl⟩ := List.cons_eq_cons.mp split
            rw [List.append_cons] at covered
            exact later earlier samples rest rfl covered
      · intro all
        constructor
        · intro samples same covered
          rw [same] at all
          exact all [] samples log rfl (by rwa [List.append_nil])
        · intro earlier samples rest split covered
          rw [split] at all
          exact all (entry :: earlier) samples rest rfl (by rwa [List.append_cons])

/-- What the device plays next is what is still to be heard of the mixes that it has taken, where a
request to stop covers those too that have been taken since, as long as it stands. So a request
drops nothing that came after it exactly if every mix that was taken while one stood was silenced
later. -/
theorem stop_reaches_next_call (capacity : Nat) (flags : Mixer.Flags) (acts : List Act) :
    let run := device.run acts (Stream.ofCapacity capacity, flags)
    let log := acts.zip run.1
    let covers := requested flags.stop
    (∀ n, (device.process run.2 n).1 =
      Array.ofFn fun i : Fin n => heard (volume log) (sounding covers [] log) i) ∧
    (sounding covers [] log = sounding never [] log ↔
      ∀ earlier samples later, log = earlier ++ (.command (.mix samples), .taken) :: later →
        covers earlier = true → later.any silences = true) := by
  intro run log covers
  constructor
  · intro n
    have seen := views_device.run acts (Stream.ofCapacity capacity, flags)
    have hears : Hears flags.stop (idealized run.2) log := by
      have start : Hears flags.stop (idealized (Stream.ofCapacity capacity, flags)) [] :=
        hears_start capacity flags
      have found := hears_run acts start
      rw [← seen] at found
      exact found
    calc (device.process run.2 n).1
      _ = (ideal.process (idealized run.2) n).1 :=
        congrArg Prod.fst (views_device.process run.2 n)
      _ = Array.ofFn fun i : Fin n => heard (volume log) (sounding covers [] log) i :=
        hears.play n
  · exact sounding_eq_iff covers [] log

/-- A request is made, and then a sample is mixed in. Nobody silences that later, but it is not
heard: the next call gives silence, and then nothing is left. -/
theorem mix_after_stop_unheard :
    let run := device.run [.stop, .command (.mix #[0.5])] (Stream.ofCapacity 64, .clear)
    let log := [Act.stop, .command (.mix #[0.5])].zip run.1
    run.1 = [.noted, .taken] ∧ heard (volume log) (sounding never [] log) 0 = 0.5 ∧
      (device.process run.2 1).1 = #[0.0] ∧ (device.process run.2 1).2.2.pending = 0 := by
  refine ⟨rfl, ?_, ?_, rfl⟩
  · decide
  · decide +kernel

end Reach

end Deck

end Songline
