import Songline.Proofs.Attributes
import Songline.Proofs.PercentRange

set_option autoImplicit false

namespace Songline

def Length.written : Option Length → List NoteValue
  | none => []
  | some l => l.values

def Length.beat (l : Length) : Beat := (l.values.filterMap Beat.ofNoteValue?).foldl (· + ·) .zero

/-- The length that a chord member gives, if it gives one. -/
def ChordMember.length : ChordMember → Option Length
  | .note n => n.length
  | .rest l => l

def ChordMember.noteValues (m : ChordMember) : List NoteValue := Length.written m.length

namespace Move

/-- What a move lays out: a single note or rest, or the members of a chord. -/
def members : Move → List ChordMember
  | .note n => [.note n]
  | .rest l => [.rest l]
  | .chord ms => ms
  | .octave _ | .set _ _ => []

def noteValues (m : Move) : List NoteValue := m.members.flatMap ChordMember.noteValues

end Move

def Attribute.Takes : Attribute → Float → Prop
  | .tempo, value => 1.0 ≤ value ∧ value ≤ 1000.0
  | .volume, value | .quant, value => 0.0 ≤ value ∧ value ≤ 100.0
  | .octave, value => ∃ octave ∈ Style.octaves, (Float.ofInt octave == value) = true

/-- A setting names an attribute and gives it a value that it takes; an octave that is set is one of
those that can be. -/
def Move.InRange : Move → Prop
  | .octave (.set n) => n.toNat ≤ 9
  | .set name value => ∃ a, Attribute.ofName? name = some a ∧ a.Takes value
  | .note _ | .rest _ | .chord _ | .octave .up | .octave .down => True

namespace Style

/-- The style once a length has been given. It stays for the notes that give none. -/
def lengthened (s : Style) : Option Length → Style
  | none => s
  | some l => { s with length := l.beat }

def stretch (s : Style) : Offset := s.length.atTempo s.tempo

def afterMembers (s : Style) (ms : List ChordMember) : Style :=
  ms.foldl (fun s m => s.lengthened m.length) s

/-- The stretches of chord members, in whole microseconds. -/
def stretches (s : Style) : List ChordMember → List Nat
  | [] => []
  | m :: ms =>
    let t := s.lengthened m.length
    t.stretch.micros.toNat :: t.stretches ms

/-- The style after a move. An octave is moved to exactly, wherever that is. -/
def after (s : Style) : Move → Style
  | .octave (.set n) => if n.toNat ≤ 9 then { s with octave := n.toNat } else s
  | .octave .up => { s with octave := s.octave + 1 }
  | .octave .down => { s with octave := s.octave - 1 }
  | .set name value => (((Attribute.ofName? name).bind (·.put? value)).getD fun s => s) s
  | m => s.afterMembers m.members

/-- How far a move takes a part: by the shortest stretch of its members. -/
def advance (s : Style) (m : Move) : Nat := (s.stretches m.members).min?.getD 0

/-- The styles after each of some moves. -/
def course (s : Style) : List Move → List Style
  | [] => []
  | m :: ms => s.after m :: (s.after m).course ms

/-- How far each of some moves takes a part. -/
def advances (s : Style) : List Move → List Nat
  | [] => []
  | m :: ms => s.advance m :: (s.after m).advances ms

/-- The octave is one that can be moved up and down exactly. -/
def OctaveInside (s : Style) : Prop := lowestOctave < s.octave ∧ s.octave < highestOctave

instance (s : Style) : Decidable s.OctaveInside := inferInstanceAs (Decidable (_ ∧ _))

end Style

/-- A note at a place, in the style that is in force there. -/
structure Mark where
  start : Nat
  style : Style
  note : Note

namespace Mark

/-- The exact number of the pitch, if the letter is that of a note. -/
def pitch? (k : Mark) : Option Int :=
  (Pitch.letterStep? k.note.letter).map fun step =>
    Pitch.number step k.note.accidentals k.style.octave

/-- The pitch is one that MIDI has. -/
def InRange (k : Mark) : Prop := ∃ n, k.pitch? = some n ∧ 0 ≤ n ∧ n ≤ 127

end Mark

/-- An event of a part is exactly what a mark says. -/
structure Event.Exactly (id : PartId) (e : Event) (k : Mark) : Prop where
  part : e.part = id
  start : e.offset.micros.toNat = k.start
  pitch : k.pitch? = some (e.pitch.toNat : Int)
  duration : e.duration.micros.toNat =
    k.style.stretch.micros.toNat * k.style.quant.value.toNat / 100
  volume : e.volume = k.style.volume.value

namespace Style

def memberMarks (s : Style) (start : Nat) : List ChordMember → List Mark
  | [] => []
  | m :: ms =>
    let t := s.lengthened m.length
    m.notes.map (Mark.mk start t) ++ t.memberMarks start ms

/-- The marks of some moves, each at the place that those before it lead to. -/
def marks (s : Style) (start : Nat) : List Move → List Mark
  | [] => []
  | m :: ms => s.memberMarks start m.members ++ (s.after m).marks (start + s.advance m) ms

/-- All that is written can be laid out from a place on. -/
structure Fits (s : Style) (start : Nat) (moves : List Move) : Prop where
  lengths : ∀ m ∈ moves, ∀ v ∈ m.noteValues, (Beat.ofNoteValue? v).isSome
  settings : ∀ m ∈ moves, m.InRange
  pitches : ∀ k ∈ s.marks start moves, k.InRange
  room : start + (s.advances moves).sum ≤ Saturating.top

theorem mem_octaves_iff (n : UInt32) : (n.toNat : Int) ∈ octaves ↔ n.toNat ≤ 9 := by
  simp only [octaves, List.mem_cons, List.not_mem_nil, or_false]
  omega

theorem fits_singleton (s : Style) (start : Nat) (m : Move) :
    s.Fits start [m] ↔ (∀ v ∈ m.noteValues, (Beat.ofNoteValue? v).isSome) ∧ m.InRange ∧
      (∀ k ∈ s.memberMarks start m.members, k.InRange) ∧
      start + s.advance m ≤ Saturating.top := by
  have marks : s.marks start [m] = s.memberMarks start m.members := List.append_nil _
  have advances : (s.advances [m]).sum = s.advance m := List.sum_singleton
  constructor
  · rintro ⟨lengths, settings, pitches, room⟩
    rw [marks] at pitches
    rw [advances] at room
    exact ⟨lengths m List.mem_cons_self, settings m List.mem_cons_self, pitches, room⟩
  · rintro ⟨lengths, settings, pitches, room⟩
    refine ⟨fun m' here => ?_, fun m' here => ?_, ?_, ?_⟩
    · rw [List.mem_singleton.mp here]
      exact lengths
    · rw [List.mem_singleton.mp here]
      exact settings
    · rw [marks]
      exact pitches
    · rw [advances]
      exact room

/-- Moves fit if the first does, and the others where it leads to. -/
theorem fits_cons (s : Style) (start : Nat) (m : Move) (moves : List Move) :
    s.Fits start (m :: moves) ↔
      s.Fits start [m] ∧ (s.after m).Fits (start + s.advance m) moves := by
  have marks : s.marks start (m :: moves) =
      s.memberMarks start m.members ++ (s.after m).marks (start + s.advance m) moves := rfl
  have total : (s.advances (m :: moves)).sum = s.advance m + ((s.after m).advances moves).sum :=
    List.sum_cons
  rw [fits_singleton]
  constructor
  · rintro ⟨lengths, settings, pitches, room⟩
    rw [List.forall_mem_cons] at lengths settings
    rw [marks, List.forall_mem_append] at pitches
    rw [total] at room
    refine ⟨⟨lengths.1, settings.1, pitches.1, ?_⟩, lengths.2, settings.2, pitches.2, ?_⟩
    · omega
    · omega
  · rintro ⟨⟨lengths, settings, pitches, -⟩, rest⟩
    refine ⟨?_, ?_, ?_, ?_⟩
    · exact List.forall_mem_cons.mpr ⟨lengths, rest.lengths⟩
    · exact List.forall_mem_cons.mpr ⟨settings, rest.settings⟩
    · rw [marks]
      exact List.forall_mem_append.mpr ⟨pitches, rest.pitches⟩
    · have room := rest.room
      rw [total]
      omega

end Style

theorem Attribute.put?_isSome_iff (a : Attribute) (value : Float) :
    (a.put? value).isSome ↔ a.Takes value := by
  cases a with
  | tempo =>
      simp only [put?, Takes]
      by_cases inside : 1.0 ≤ value ∧ value ≤ 1000.0
      · rw [if_pos inside]
        exact iff_of_true rfl inside
      · rw [if_neg inside]
        exact iff_of_false Bool.false_ne_true inside
  | octave =>
      simp only [put?, Takes, Option.isSome_map, Style.octave?, List.find?_isSome]
  | volume | quant =>
      simp only [put?, Takes, Option.isSome_map, Percent.ofFloat?_isSome_iff]

namespace Beat

/-- Note values are added up as far as each of them has a length. -/
theorem addValues_cases (values : List NoteValue) (total : Beat) :
    let add : Beat → NoteValue → Except UInt32 Beat := fun total v =>
      match ofNoteValue? v with
      | some b => .ok (total + b)
      | none => .error v.denominator
    ((∀ v ∈ values, (ofNoteValue? v).isSome) ∧
        values.foldlM add total = .ok ((values.filterMap ofNoteValue?).foldl (· + ·) total)) ∨
      (¬∀ v ∈ values, (ofNoteValue? v).isSome) ∧
        ∃ denominator, values.foldlM add total = .error denominator := by
  intro add
  induction values generalizing total with
  | nil => exact Or.inl ⟨fun v member => absurd member List.not_mem_nil, rfl⟩
  | cons v values ih =>
      rw [List.foldlM_cons, List.forall_mem_cons]
      cases lasts : ofNoteValue? v with
      | none =>
          have failed : add total v = .error v.denominator := by simp only [add, lasts]
          rw [failed]
          exact Or.inr ⟨fun all => Bool.false_ne_true all.1, v.denominator, rfl⟩
      | some b =>
          have added : add total v = .ok (total + b) := by simp only [add, lasts]
          rw [added, List.filterMap_cons_some lasts, List.foldl_cons]
          rcases ih (total + b) with ⟨all, sum⟩ | ⟨missing, denominator, failed⟩
          · exact Or.inl ⟨⟨rfl, all⟩, sum⟩
          · exact Or.inr ⟨fun all => missing all.2, denominator, failed⟩

/-- Tied note values have a length together if and only if each of them has one. -/
theorem ofLength_cases (l : Length) :
    (∀ v ∈ l.values, (ofNoteValue? v).isSome) ∧ ofLength l = .ok l.beat ∨
      (¬∀ v ∈ l.values, (ofNoteValue? v).isSome) ∧
        ∃ denominator, ofLength l = .error denominator :=
  addValues_cases l.values .zero

end Beat

/-- A pitch is found if and only if its exact number is one that MIDI has, and then it is that. -/
theorem Mark.midi?_cases (k : Mark) :
    (∃ pitch, Pitch.midi? k.note.letter k.note.accidentals k.style.octave = some pitch ∧
        k.pitch? = some (pitch.toNat : Int) ∧ k.InRange) ∨
      Pitch.midi? k.note.letter k.note.accidentals k.style.octave = none ∧ ¬k.InRange := by
  unfold InRange pitch? Pitch.midi?
  cases Pitch.letterStep? k.note.letter with
  | none =>
      refine Or.inr ⟨rfl, ?_⟩
      rintro ⟨n, none, -⟩
      cases none
  | some step =>
      simp only [Option.bind_eq_bind, Option.bind_some, Option.map_some]
      generalize Pitch.number step k.note.accidentals k.style.octave = n
      by_cases inside : 0 ≤ n ∧ n ≤ 127
      · rw [if_pos inside]
        have whole : ((UInt8.ofNat n.toNat).toNat : Int) = n := by
          rw [UInt8.toNat_ofNat', Nat.mod_eq_of_lt (by omega)]
          omega
        exact Or.inl ⟨_, rfl, by rw [whole], n, rfl, inside⟩
      · rw [if_neg inside]
        refine Or.inr ⟨rfl, ?_⟩
        rintro ⟨m, same, there⟩
        cases same
        exact inside there

/-- What is sounded of a stretch is the exact part of it. -/
theorem Offset.toNat_percent (a : Offset) (p : Percent) :
    (a.percent p.value).micros.toNat = a.micros.toNat * p.value.toNat / 100 := by
  have part : p.value.toNat ≤ 100 := UInt8.le_iff_toNat_le.mp p.le_hundred
  have bound := Saturating.toNat_le_top a.micros
  have less : a.micros.toNat * p.value.toNat / 100 ≤ a.micros.toNat := by
    have product := Nat.mul_le_mul_left a.micros.toNat part
    omega
  rw [percent, Saturating.toNat_ofNat]
  exact Nat.min_eq_left (Nat.le_trans less bound)

end Songline
