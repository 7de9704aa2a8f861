import Songline.Proofs.CheckedWords
import Songline.Proofs.WrittenNotes
import Songline.Score.Part

set_option autoImplicit false

namespace Songline.Checked

/-- Adds what the dots add to some ticks, each half of the addition before it. -/
def addDots (ticks addition : Nat) : Nat → Checked Nat
  | 0 => pure ticks
  | dots + 1 => do
    let more ← unsigned 64 (ticks + addition / 2)
    addDots more (addition / 2) dots

def ofNoteValue (v : NoteValue) : Checked (Option Beat) :=
  if v.denominator = 0 then pure none
  else
    let base := Beat.baseTicks v.denominator
    if base = 0 then pure none
    else do
      let ticks ← addDots base base v.dots
      return some ⟨UInt64.ofNat ticks⟩

/-- The length of tied note values and one before them, or the first that lasts no tick. -/
def addValues (total : Beat) : List NoteValue → Checked (Except UInt32 Beat)
  | [] => pure (.ok total)
  | v :: vs => do
    match ← ofNoteValue v with
    | some b => addValues (total + b) vs
    | none => return .error v.denominator

/-- The number of a note. Its accidentals have 8 bits, and what they add to the step has 32. -/
def midi (letter : Char) (accidentals octave : Int) : Checked (Option UInt8) :=
  match Pitch.letterStep? letter with
  | none => pure none
  | some step => do
    let shift ← signed 32 (step + (← signed 8 accidentals))
    let n := (octave + 1) * 12 + shift
    return if 0 ≤ n ∧ n ≤ 127 then some (UInt8.ofNat n.toNat) else none

/-- The given percentage, by a product of 128 bits. -/
def percent (a : Offset) (p : UInt8) : Checked Offset := do
  let product ← unsigned 128 (a.micros.toNat * p.toNat)
  return ⟨Saturating.ofNat (product / 100)⟩

def step (c : Cursor) : Option Length → Checked (Except ScoreError Offset × Cursor)
  | none => pure (c.step none)
  | some l => do
    match ← addValues .zero l.values with
    | .error denominator => return (.error (.invalidLength denominator), c)
    | .ok beat =>
      return (.ok (beat.atTempo c.style.tempo), { c with style := { c.style with length := beat } })

def sound (id : PartId) (c : Cursor) (n : Note) :
    Checked (Except ScoreError (Event × Offset) × Cursor) := do
  match ← step c n.length with
  | (.error e, c) => return (.error e, c)
  | (.ok stretch, c) =>
    match ← midi n.letter n.accidentals c.style.octave with
    | none => return (.error (.pitchOutOfRange n.letter c.style.octave), c)
    | some pitch =>
      let length ← percent stretch c.style.quant.value
      return (.ok (⟨c.offset, id, pitch, length, c.style.volume.value⟩, stretch), c)

def member (id : PartId) (c : Cursor) :
    ChordMember → Checked (Except ScoreError (List Event × Offset) × Cursor)
  | .note n => do
    match ← sound id c n with
    | (.ok (e, stretch), c) => return (.ok ([e], stretch), c)
    | (.error e, c) => return (.error e, c)
  | .rest l => do
    match ← step c l with
    | (.ok stretch, c) => return (.ok ([], stretch), c)
    | (.error e, c) => return (.error e, c)

def members (id : PartId) (c : Cursor) (shortest : Option Offset) :
    List ChordMember → Checked (Except ScoreError (List Event × Option Offset) × Cursor)
  | [] => pure (.ok ([], shortest), c)
  | m :: ms => do
    match ← member id c m with
    | (.error e, c) => return (.error e, c)
    | (.ok (events, stretch), c) =>
      match ← members id c (some ((shortest.map (·.min stretch)).getD stretch)) ms with
      | (.error e, c) => return (.error e, c)
      | (.ok (more, shortest), c) => return (.ok (events ++ more, shortest), c)

def move (id : PartId) (c : Cursor) : Move → Checked (Except ScoreError (List Event) × Cursor)
  | .note n => do
    match ← sound id c n with
    | (.ok (e, stretch), c) => return c.advanceAfter [e] stretch
    | (.error e, c) => return (.error e, c)
  | .rest l => do
    match ← step c l with
    | (.ok stretch, c) => return c.advanceAfter [] stretch
    | (.error e, c) => return (.error e, c)
  | .chord ms => do
    match ← members id c none ms with
    | (.ok (events, some stretch), c) => return c.advanceAfter events stretch
    | (.ok (events, none), c) => return (.ok events, c)
    | (.error e, c) => return (.error e, c)
  | .octave change => pure (c.move id (.octave change))
  | .set name value => pure (c.move id (.set name value))

def actPart (p : Part) : Part.Action → Checked (Except ScoreError (List Event) × Part)
  | .move m => do
    let (result, cursor) ← move p.id p.cursor m
    return (result, { p with cursor := cursor })
  | .voice n => pure (p.act (.voice n))
  | .closeVoices => pure (p.act .closeVoices)

theorem addDots_eq (dots : Nat) {ticks addition : Nat} (room : ticks + addition < 2 ^ 64) :
    addDots ticks addition dots = some (ticks + Beat.dotted addition dots) := by
  induction dots generalizing ticks addition with
  | zero => rfl
  | succ dots ih =>
      have fits : unsigned 64 (ticks + addition / 2) = some (ticks + addition / 2) :=
        unsigned_eq (by omega)
      rw [addDots, fits, Beat.dotted]
      simp only [Option.bind_eq_bind, Option.bind_some]
      rw [ih (by omega)]
      by_cases nothing : addition / 2 = 0
      · have none : ∀ dots, Beat.dotted 0 dots = 0 := by
          intro dots
          cases dots <;> rfl
        rw [if_pos nothing, nothing, none]
      · rw [if_neg nothing, Nat.add_assoc]

/-- A note value lasts no longer than a whole note. -/
theorem baseTicks_le {denominator : UInt32} (nonzero : denominator ≠ 0) :
    Beat.baseTicks denominator ≤ 3840 := by
  have positive : 0 < denominator.toNat :=
    Nat.pos_of_ne_zero fun zero => nonzero (UInt32.toNat_inj.mp zero)
  apply Nat.le_of_lt_succ
  rw [Beat.baseTicks, Nat.div_lt_iff_lt_mul (by omega)]
  simp only [Beat.ticksPerWhole, Beat.ticksPerBeat]
  omega

theorem ofNoteValue_eq (v : NoteValue) : ofNoteValue v = some (Beat.ofNoteValue? v) := by
  unfold ofNoteValue Beat.ofNoteValue?
  by_cases zero : v.denominator = 0
  · simp only [zero, ↓reduceIte]
    rfl
  · have bound := baseTicks_le zero
    simp only [zero, ↓reduceIte]
    split
    · rfl
    · rw [addDots_eq v.dots (by omega)]
      rfl

theorem addValues_eq (vs : List NoteValue) (total : Beat) :
    addValues total vs = some (vs.foldlM
      (fun total v =>
        match Beat.ofNoteValue? v with
        | some b => .ok (total + b)
        | none => .error v.denominator)
      total) := by
  induction vs generalizing total with
  | nil => rfl
  | cons v vs ih =>
      rw [addValues, ofNoteValue_eq, List.foldlM_cons]
      simp only [Option.bind_eq_bind, Option.bind_some]
      cases Beat.ofNoteValue? v with
      | none => rfl
      | some b => exact ih (total + b)

theorem letterStep_bounds {letter : Char} {step : Int}
    (found : Pitch.letterStep? letter = some step) : 0 ≤ step ∧ step ≤ 11 := by
  unfold Pitch.letterStep? at found
  split at found <;> cases found <;> decide

theorem midi_eq (letter : Char) {accidentals : Int} (octave : Int)
    (limited : accidentals.natAbs ≤ maxAccidentals) :
    midi letter accidentals octave = some (Pitch.midi? letter accidentals octave) := by
  have near : accidentals.natAbs ≤ 12 := limited
  unfold midi Pitch.midi?
  cases found : Pitch.letterStep? letter with
  | none => rfl
  | some step =>
      obtain ⟨low, high⟩ := letterStep_bounds found
      have narrow : signed 8 accidentals = some accidentals := signed_eq (by omega) (by omega)
      have fits : signed 32 (step + accidentals) = some (step + accidentals) :=
        signed_eq (by omega) (by omega)
      simp only [narrow, fits, Option.bind_eq_bind, Option.bind_some, Pitch.number, Int.add_assoc]
      rfl

theorem percent_eq (a : Offset) (p : UInt8) : percent a p = some (a.percent p) := by
  have micros := a.micros.toNat_lt
  have part := p.toNat_lt
  have product : a.micros.toNat * p.toNat < 2 ^ 128 :=
    Nat.lt_trans (Nat.mul_lt_mul'' micros part) (by decide)
  rw [percent, unsigned_eq product]
  rfl

theorem step_eq (c : Cursor) (length : Option Length) : step c length = some (c.step length) := by
  cases length with
  | none => rfl
  | some l =>
      have added : addValues .zero l.values = some (Beat.ofLength l) := addValues_eq l.values .zero
      simp only [step, added, Cursor.step, Option.bind_eq_bind, Option.bind_some]
      cases Beat.ofLength l <;> rfl

theorem sound_eq (id : PartId) (c : Cursor) {n : Note} (limited : n.Limited) :
    sound id c n = some (c.sound id n) := by
  simp only [sound, step_eq, Cursor.sound, Option.bind_eq_bind, Option.bind_some]
  cases c.step n.length with
  | mk result next =>
      cases result with
      | error e => rfl
      | ok stretch =>
          simp only [midi_eq n.letter _ limited, percent_eq, Option.bind_some]
          cases Pitch.midi? n.letter n.accidentals next.style.octave <;> rfl

theorem member_eq (id : PartId) (c : Cursor) {m : ChordMember}
    (limited : ∀ n, m = .note n → n.Limited) : member id c m = some (c.member id m) := by
  cases m with
  | note n =>
      simp only [member, sound_eq id c (limited n rfl), Cursor.member, Option.bind_eq_bind,
        Option.bind_some]
      rcases c.sound id n with ⟨_ | _, next⟩ <;> rfl
  | rest l =>
      simp only [member, step_eq, Cursor.member, Option.bind_eq_bind, Option.bind_some]
      rcases c.step l with ⟨_ | _, next⟩ <;> rfl

theorem members_eq (id : PartId) (ms : List ChordMember) (c : Cursor) (shortest : Option Offset)
    (limited : ∀ n, .note n ∈ ms → n.Limited) :
    members id c shortest ms = some (c.members id shortest ms) := by
  induction ms generalizing c shortest with
  | nil => rfl
  | cons m ms ih =>
      have first := member_eq id c fun n note => limited n (note ▸ List.mem_cons_self)
      have later := fun c shortest => ih c shortest fun n inside =>
        limited n (List.mem_cons_of_mem m inside)
      simp only [members, first, later, Cursor.members, Option.bind_eq_bind, Option.bind_some]
      rcases c.member id m with ⟨_ | ⟨events, stretch⟩, next⟩
      · rfl
      · simp only
        rcases next.members id _ ms with ⟨_ | _, last⟩ <;> rfl

def Limited : Move → Prop
  | .note n => n.Limited
  | .chord ms => ∀ n, .note n ∈ ms → n.Limited
  | _ => True

theorem move_eq (id : PartId) (c : Cursor) {m : Move} (limited : Limited m) :
    move id c m = some (c.move id m) := by
  cases m with
  | note n =>
      simp only [move, sound_eq id c limited, Cursor.move, Option.bind_eq_bind, Option.bind_some]
      rcases c.sound id n with ⟨_ | _, next⟩ <;> rfl
  | rest l =>
      simp only [move, step_eq, Cursor.move, Option.bind_eq_bind, Option.bind_some]
      rcases c.step l with ⟨_ | _, next⟩ <;> rfl
  | chord ms =>
      simp only [move, members_eq id ms c none limited, Cursor.move, Option.bind_eq_bind,
        Option.bind_some]
      rcases c.members id none ms with ⟨_ | ⟨events, _ | _⟩, next⟩ <;> rfl
  | octave change => rfl
  | set name value => rfl

def LimitedAction : Part.Action → Prop
  | .move m => Limited m
  | _ => True

/-- Every action with notes that can be written can be done in every part. -/
theorem actPart_eq (p : Part) {a : Part.Action} (limited : LimitedAction a) :
    actPart p a = some (p.act a) := by
  cases a with
  | move m =>
      simp only [actPart, move_eq p.id p.cursor limited, Option.bind_eq_bind, Option.bind_some]
      rfl
  | voice n => rfl
  | closeVoices => rfl

end Songline.Checked
