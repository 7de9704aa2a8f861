import Songline.Proofs.IdealMixer

set_option autoImplicit false

namespace Songline

/-- What is done with a deck, and what it becomes. It may refuse a command. -/
structure Deck (State : Type) where
  push? : State → Mixer.Command → Option State
  stop : State → State
  process : State → Nat → Samples × State

namespace Deck

inductive Act
  | command (c : Mixer.Command)
  | stop
  /-- So many samples are asked for. -/
  | process (n : Nat)

inductive Answer
  | taken
  | refused
  | noted
  | played (samples : Samples)

section Runs

variable {State : Type}

def act (deck : Deck State) (s : State) : Act → Answer × State
  | .command c =>
    match deck.push? s c with
    | some s => (.taken, s)
    | none => (.refused, s)
  | .stop => (.noted, deck.stop s)
  | .process n =>
    let (samples, s) := deck.process s n
    (.played samples, s)

def run (deck : Deck State) : List Act → State → List Answer × State
  | [], s => ([], s)
  | a :: acts, s =>
    let (answer, s) := deck.act s a
    let (answers, s) := deck.run acts s
    (answer :: answers, s)

/-- What holds at first and is kept by every act holds after every run. -/
theorem run_induction {deck : Deck State} {P : State → Prop}
    (kept : ∀ s a, P s → P (deck.act s a).2) (acts : List Act) (s : State) (first : P s) :
    P (deck.run acts s).2 := by
  induction acts generalizing s with
  | nil => exact first
  | cons a acts ih => exact ih (deck.act s a).2 (kept s a first)

theorem length_run (deck : Deck State) (acts : List Act) (s : State) :
    (deck.run acts s).1.length = acts.length := by
  induction acts generalizing s with
  | nil => rfl
  | cons a acts ih => exact congrArg (· + 1) (ih (deck.act s a).2)

/-- One act more. -/
theorem run_concat (deck : Deck State) (acts : List Act) (a : Act) (s : State) :
    deck.run (acts ++ [a]) s =
      ((deck.run acts s).1 ++ [(deck.act (deck.run acts s).2 a).1],
        (deck.act (deck.run acts s).2 a).2) := by
  induction acts generalizing s with
  | nil => rfl
  | cons b acts ih =>
      simp only [List.cons_append, run, ih]

end Runs

section Views

variable {State Seen : Type}

/-- Seen through `view`, a deck does what another does. -/
structure Views (view : State → Seen) (deck : Deck State) (seen : Deck Seen) : Prop where
  push : ∀ s c, (deck.push? s c).map view = seen.push? (view s) c
  stop : ∀ s, view (deck.stop s) = seen.stop (view s)
  process : ∀ s n, Prod.map id view (deck.process s n) = seen.process (view s) n

theorem Views.act {view : State → Seen} {deck : Deck State} {seen : Deck Seen}
    (views : Views view deck seen) (s : State) (a : Act) :
    Prod.map id view (deck.act s a) = seen.act (view s) a := by
  cases a with
  | command c =>
      simp only [Deck.act, ← views.push]
      cases deck.push? s c <;> rfl
  | stop => exact congrArg (Prod.mk Answer.noted) (views.stop s)
  | process n =>
      simp only [Deck.act, ← views.process]
      rfl

/-- The answers are those of the deck that is seen. -/
theorem Views.run {view : State → Seen} {deck : Deck State} {seen : Deck Seen}
    (views : Views view deck seen) (acts : List Act) (s : State) :
    Prod.map id view (deck.run acts s) = seen.run acts (view s) := by
  induction acts generalizing s with
  | nil => rfl
  | cons a acts ih =>
      simp only [Deck.run, ← views.act, ← ih, Prod.map]
      rfl

/-- A deck that shares its flags with those who hand it commands: whoever wants it to stop sets the
one flag, and it sees to that when samples are asked for. -/
def sharing (push? : State → Mixer.Command → Option State)
    (process : State → Mixer.Flags → Nat → Samples × State × Mixer.Flags) :
    Deck (State × Mixer.Flags) where
  push? s c := (push? s.1 c).map fun next => (next, s.2)
  stop s := (s.1, { s.2 with stop := true })
  process s n := process s.1 s.2 n

/-- To see one such deck in another, it is enough to see its states in those of the other. -/
theorem views_sharing {view : State → Seen} {push? : State → Mixer.Command → Option State}
    {seenPush? : Seen → Mixer.Command → Option Seen}
    {process : State → Mixer.Flags → Nat → Samples × State × Mixer.Flags}
    {seenProcess : Seen → Mixer.Flags → Nat → Samples × Seen × Mixer.Flags}
    (push : ∀ s c, (push? s c).map view = seenPush? (view s) c)
    (processed : ∀ s flags n,
      Prod.map id (Prod.map view id) (process s flags n) = seenProcess (view s) flags n) :
    Views (Prod.map view id) (sharing push? process) (sharing seenPush? seenProcess) where
  push s c := by
    simp only [sharing, Prod.map_fst, Prod.map_snd, ← push, Option.map_map]
    rfl
  stop s := rfl
  process s n := processed s.1 s.2 n

end Views

/-- The mixer behind an output device. -/
def device : Deck (Stream × Mixer.Flags) := sharing Stream.push? Stream.process

end Deck

/-- An ideal mixer and the queue of its commands. -/
structure IdealStream where
  mixer : IdealMixer
  queue : Mixer.Queue

namespace IdealStream

def ofCapacity (capacity : Nat) : IdealStream := ⟨.fresh, .empty capacity⟩

def push? (s : IdealStream) (c : Mixer.Command) : Option IdealStream :=
  (s.queue.push? c).map fun q => { s with queue := q }

/-- Carries out what waits, stops if that is asked for, and plays. -/
def process (s : IdealStream) (flags : Mixer.Flags) (n : Nat) :
    Samples × IdealStream × Mixer.Flags :=
  let mixer := (s.queue.waiting.foldl IdealMixer.carryOut s.mixer).heed flags.stop
  let (out, mixer) := mixer.play n
  (out, ⟨mixer, .empty s.queue.capacity⟩, ⟨false, mixer.unplayed.length⟩)

/-- With nothing in between, two calls for samples are one call for as many. -/
theorem process_add (s : IdealStream) (flags : Mixer.Flags) (n₁ n₂ : Nat) :
    let first := s.process flags n₁
    let second := first.2.1.process first.2.2 n₂
    s.process flags (n₁ + n₂) = (first.1 ++ second.1, second.2) := by
  have together := ((s.queue.waiting.foldl IdealMixer.carryOut s.mixer).heed flags.stop).play_add
    n₁ n₂
  simp only [process, together]
  rfl

end IdealStream

namespace Stream

def ideal (s : Stream) : IdealStream := ⟨s.mixer.ideal, s.queue⟩

/-- The device asks for `n` samples; the mixer drops what it has played whenever that is `due`. -/
def processWhen (due : Nat → Bool) (s : Stream) (flags : Mixer.Flags) (n : Nat) :
    Samples × Stream × Mixer.Flags :=
  let mixer := (s.queue.waiting.foldl Mixer.carryOut s.mixer).heed flags.stop
  let (out, mixer) := mixer.play n
  let mixer := mixer.compactWhen due
  (out, ⟨mixer, .empty s.queue.capacity⟩, ⟨false, mixer.remaining⟩)

theorem process_eq_processWhen (s : Stream) (flags : Mixer.Flags) (n : Nat) :
    s.process flags n = s.processWhen (fun played => Mixer.keepAtMost ≤ played) flags n := by
  simp only [process, processWhen, Mixer.compact_eq_compactWhen]

theorem ideal_push? (s : Stream) (c : Mixer.Command) :
    (s.push? c).map ideal = s.ideal.push? c := by
  simp only [push?, IdealStream.push?, Option.map_map]
  rfl

theorem ideal_processWhen (due : Nat → Bool) (s : Stream) (flags : Mixer.Flags) (n : Nat) :
    Prod.map id (Prod.map ideal id) (s.processWhen due flags n) = s.ideal.process flags n := by
  let ready := (s.queue.waiting.foldl Mixer.carryOut s.mixer).heed flags.stop
  have seen : (s.queue.waiting.foldl IdealMixer.carryOut s.mixer.ideal).heed flags.stop =
      ready.ideal := by
    rw [Mixer.ideal_heed, Mixer.ideal_carryOutAll]
  have pending : ((ready.play n).2.compactWhen due).remaining =
      (ready.play n).2.ideal.unplayed.length := by
    rw [← Mixer.length_unplayed, Mixer.ideal_compactWhen]
  have played := ready.ideal_play n
  simp only [processWhen, IdealStream.process, ideal, seen, ← played, Prod.map]
  rw [pending, Mixer.ideal_compactWhen]
  rfl

/-- However much has been played of it, a buffer is never read past its end. -/
theorem within_process (s : Stream) (flags : Mixer.Flags) (n : Nat) (within : s.mixer.Within) :
    (s.process flags n).2.1.mixer.Within := by
  apply Mixer.within_compact
  apply Mixer.within_play
  exact Mixer.within_heed flags.stop _ (Mixer.within_carryOutAll s.queue.waiting s.mixer within)

end Stream

namespace Deck

def ideal : Deck (IdealStream × Mixer.Flags) := sharing IdealStream.push? IdealStream.process

/-- The device, if the mixer drops what it has played whenever that is `due`. -/
def deviceWhen (due : Nat → Bool) : Deck (Stream × Mixer.Flags) :=
  sharing Stream.push? (Stream.processWhen due)

/-- A device with the ideal mixer in place of its own. -/
abbrev idealized : Stream × Mixer.Flags → IdealStream × Mixer.Flags := Prod.map Stream.ideal id

theorem views_deviceWhen (due : Nat → Bool) : Views idealized (deviceWhen due) ideal :=
  views_sharing Stream.ideal_push? (Stream.ideal_processWhen due)

theorem views_device : Views idealized device ideal := by
  apply views_sharing Stream.ideal_push?
  intro s flags n
  rw [Stream.process_eq_processWhen]
  exact Stream.ideal_processWhen _ s flags n

theorem within_act (s : Stream × Mixer.Flags) (a : Act) (within : s.1.mixer.Within) :
    (device.act s a).2.1.mixer.Within := by
  cases a with
  | command c =>
      simp only [act, device, sharing, Stream.push?]
      cases s.1.queue.push? c <;> exact within
  | stop => exact within
  | process n => exact s.1.within_process s.2 n within

/-- The device plays what an ideal mixer plays: after any commands, requests to stop and calls for
samples, the answers are the ideal ones, and so is what is left to be played, what waits, and what
the flags tell. The buffer is never read past its end, whatever is carried out next. When the played
samples are dropped makes no difference; and two calls for samples, with nothing in between, are one
call for as many. -/
theorem device_plays_ideally (capacity : Nat) (flags : Mixer.Flags) (acts : List Act) :
    let start := (Stream.ofCapacity capacity, flags)
    let last := (device.run acts start).2
    Prod.map id idealized (device.run acts start) =
      ideal.run acts (IdealStream.ofCapacity capacity, flags) ∧
    (∀ (commands : List Mixer.Command) (stop : Bool),
      ((commands.foldl Mixer.carryOut last.1.mixer).heed stop).Within) ∧
    (∀ due, Prod.map id idealized ((deviceWhen due).run acts start) =
      Prod.map id idealized (device.run acts start)) ∧
    ∀ n₁ n₂,
      let first := device.process last n₁
      let second := device.process first.2 n₂
      let whole := device.process last (n₁ + n₂)
      first.1 ++ second.1 = whole.1 ∧ idealized second.2 = idealized whole.2 := by
  intro start last
  have each : ∀ due, Prod.map id idealized ((deviceWhen due).run acts start) =
      ideal.run acts (IdealStream.ofCapacity capacity, flags) :=
    fun due => (views_deviceWhen due).run acts start
  refine ⟨views_device.run acts start, ?_, ?_, ?_⟩
  · intro commands stop
    have within : last.1.mixer.Within :=
      run_induction (P := fun s => s.1.mixer.Within) within_act acts start (Nat.le_refl 0)
    exact Mixer.within_heed stop _ (Mixer.within_carryOutAll commands _ within)
  · intro due
    rw [each due]
    exact (views_device.run acts start).symm
  · intro n₁ n₂ first second whole
    have joined : Prod.map id idealized whole = (first.1 ++ second.1, idealized second.2) :=
      calc Prod.map id idealized whole
        _ = ideal.process (idealized last) (n₁ + n₂) := views_device.process last (n₁ + n₂)
        _ = ((ideal.process (idealized last) n₁).1 ++
              (ideal.process (ideal.process (idealized last) n₁).2 n₂).1,
            (ideal.process (ideal.process (idealized last) n₁).2 n₂).2) :=
          (idealized last).1.process_add (idealized last).2 n₁ n₂
        _ = (first.1 ++ second.1, idealized second.2) := by
          rw [← views_device.process last n₁, Prod.map_snd, ← views_device.process first.2 n₂]
          rfl
    exact ⟨(congrArg Prod.fst joined).symm, (congrArg Prod.snd joined).symm⟩

end Deck

end Songline
