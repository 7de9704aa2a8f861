import Mathlib.Data.List.Forall2
import Songline.Proofs.Marks
import Songline.Proofs.TimelineRoom

set_option autoImplicit false

/- Parts keep to what is written. The sums and pitches that say whether moves fit have no bounds,
but every check that is made on the way is one of theirs: each operation has a result if and only if
its part of what is written fits, and then that result. So has a whole run, by induction. -/
namespace Songline

namespace Cursor

/-- An outcome is a result if and only if something fits, and then a result as expected. -/
def Meets {α : Type} (fits : Prop) (expected : α → Cursor → Prop) :
    Except ScoreError α × Cursor → Prop
  | (.ok a, next) => fits ∧ expected a next
  | (.error _, _) => ¬fits

variable {id : PartId} {c : Cursor}

theorem meets_step (c : Cursor) (length : Option Length) :
    let t := c.style.lengthened length
    Meets (∀ v ∈ Length.written length, (Beat.ofNoteValue? v).isSome)
      (fun step next => step = t.stretch ∧ next = { c with style := t }) (c.step length) := by
  cases length with
  | none => exact ⟨fun v member => absurd member List.not_mem_nil, rfl, rfl⟩
  | some l =>
      simp only [step]
      rcases Beat.ofLength_cases l with ⟨all, total⟩ | ⟨missing, denominator, failed⟩
      · rw [total]
        exact ⟨all, rfl, rfl⟩
      · rw [failed]
        exact missing

theorem meets_sound (id : PartId) (c : Cursor) (n : Note) :
    let t := c.style.lengthened n.length
    let k := Mark.mk c.offset.micros.toNat t n
    Meets ((∀ v ∈ Length.written n.length, (Beat.ofNoteValue? v).isSome) ∧ k.InRange)
      (fun laid next => laid.1.Exactly id k ∧ laid.2 = t.stretch ∧ next = { c with style := t })
      (c.sound id n) := by
  intro t k
  have stepped := meets_step c n.length
  unfold sound
  generalize c.step n.length = outcome at stepped ⊢
  rcases outcome with ⟨e | step, next⟩
  · exact fun fits => stepped fits.1
  · obtain ⟨all, rfl, rfl⟩ := stepped
    simp only
    rcases k.midi?_cases with ⟨pitch, found, number, inside⟩ | ⟨none, outside⟩
    · rw [found]
      exact ⟨⟨all, inside⟩, ⟨rfl, rfl, number, Offset.toNat_percent _ _, rfl⟩, rfl, rfl⟩
    · rw [none]
      exact fun fits => outside fits.2

theorem meets_member (id : PartId) (c : Cursor) (m : ChordMember) :
    let t := c.style.lengthened m.length
    let marks := m.notes.map (Mark.mk c.offset.micros.toNat t)
    Meets ((∀ v ∈ m.noteValues, (Beat.ofNoteValue? v).isSome) ∧ ∀ k ∈ marks, k.InRange)
      (fun laid next => List.Forall₂ (Event.Exactly id) laid.1 marks ∧ laid.2 = t.stretch ∧
        next = { c with style := t })
      (c.member id m) := by
  cases m with
  | note n =>
      have sounded := meets_sound id c n
      simp only [member]
      generalize c.sound id n = outcome at sounded ⊢
      rcases outcome with ⟨e | ⟨e, step⟩, next⟩
      · exact fun fits => sounded ⟨fits.1, fits.2 _ List.mem_cons_self⟩
      · obtain ⟨⟨all, inside⟩, exactly, stretch, style⟩ := sounded
        refine ⟨⟨all, fun k member => ?_⟩, .cons exactly .nil, stretch, style⟩
        rw [List.mem_singleton.mp member]
        exact inside
  | rest length =>
      have stepped := meets_step c length
      simp only [member]
      generalize c.step length = outcome at stepped ⊢
      rcases outcome with ⟨e | step, next⟩
      · exact fun fits => stepped fits.1
      · obtain ⟨all, stretch, style⟩ := stepped
        exact ⟨⟨all, fun k member => absurd member List.not_mem_nil⟩, .nil, stretch, style⟩

/-- The shortest of some stretches is found one by one. -/
theorem min?_shortest (shortest : Option Offset) (step : Offset) (rest : List Nat) :
    (((some ((shortest.map (·.min step)).getD step)).map (·.micros.toNat)).toList ++ rest).min? =
      ((shortest.map (·.micros.toNat)).toList ++ step.micros.toNat :: rest).min? := by
  cases shortest with
  | none => rfl
  | some first =>
      show ((first.min step).micros.toNat :: rest).min? =
        (first.micros.toNat :: step.micros.toNat :: rest).min?
      rw [Offset.toNat_min]
      rfl

theorem meets_members (id : PartId) (ms : List ChordMember) (c : Cursor)
    (shortest : Option Offset) :
    let marks := c.style.memberMarks c.offset.micros.toNat ms
    let stretches := (shortest.map (·.micros.toNat)).toList ++ c.style.stretches ms
    Meets ((∀ v ∈ ms.flatMap ChordMember.noteValues, (Beat.ofNoteValue? v).isSome) ∧
        ∀ k ∈ marks, k.InRange)
      (fun laid next => List.Forall₂ (Event.Exactly id) laid.1 marks ∧
        laid.2.map (·.micros.toNat) = stretches.min? ∧
        next = { c with style := c.style.afterMembers ms })
      (c.members id shortest ms) := by
  induction ms generalizing c shortest with
  | nil =>
      refine ⟨⟨fun v member => absurd member List.not_mem_nil,
        fun k member => absurd member List.not_mem_nil⟩, .nil, ?_, rfl⟩
      cases shortest <;> rfl
  | cons m ms ih =>
      have first := meets_member id c m
      simp only [members, Style.memberMarks, List.flatMap_cons, List.forall_mem_append]
      generalize c.member id m = outcome at first ⊢
      rcases outcome with ⟨e | ⟨events, step⟩, next⟩
      · exact fun fits => first ⟨fits.1.1, fits.2.1⟩
      · obtain ⟨⟨all, inside⟩, exactly, rfl, rfl⟩ := first
        let t := c.style.lengthened m.length
        have rest := ih { c with style := t }
          (some ((shortest.map (·.min t.stretch)).getD t.stretch))
        simp only
        generalize members id { c with style := t } _ ms = outcome at rest ⊢
        rcases outcome with ⟨e | ⟨more, least⟩, last⟩
        · exact fun fits => rest ⟨fits.1.2, fits.2.2⟩
        · obtain ⟨⟨allRest, insideRest⟩, exactlyRest, shortestRest, rfl⟩ := rest
          have laid := List.rel_append exactly exactlyRest
          refine ⟨⟨⟨all, allRest⟩, inside, insideRest⟩, laid, ?_, rfl⟩
          rw [shortestRest]
          exact min?_shortest shortest t.stretch _

theorem meets_advanceAfter (c : Cursor) (events : List Event) (step : Offset) :
    Meets (c.offset.HasRoom step)
      (fun laid next => laid = events ∧ next = { c with offset := c.offset + step })
      (c.advanceAfter events step) := by
  unfold advanceAfter
  rw [advance_eq]
  by_cases room : c.offset.HasRoom step
  · rw [if_pos room]
    exact ⟨room, rfl, rfl⟩
  · rw [if_neg room]
    exact room

/-- A move lays its marks out, leaves the style that is in force after it, and takes the part as far
as its shortest member lasts. -/
def AsWritten (id : PartId) (c : Cursor) (m : Move) : List Event → Cursor → Prop :=
  fun events next =>
    List.Forall₂ (Event.Exactly id) events (c.style.memberMarks c.offset.micros.toNat m.members) ∧
      next.style = c.style.after m ∧
      next.offset.micros.toNat = c.offset.micros.toNat + c.style.advance m

theorem meets_chord (id : PartId) (c : Cursor) (ms : List ChordMember) :
    Meets (c.style.Fits c.offset.micros.toNat [.chord ms]) (AsWritten id c (.chord ms))
      (c.move id (.chord ms)) := by
  rw [Style.fits_singleton]
  have laid := meets_members id ms c none
  simp only [move]
  generalize c.members id none ms = outcome at laid ⊢
  rcases outcome with ⟨e | ⟨events, none | step⟩, next⟩
  · exact fun fits => laid ⟨fits.1, fits.2.2.1⟩
  · -- without members there is nothing to move on by
    obtain ⟨⟨all, inside⟩, exactly, least, rfl⟩ := laid
    have still : c.style.advance (.chord ms) = 0 := by
      rw [Style.advance]
      exact congrArg (Option.getD · 0) least.symm
    have bound := Saturating.toNat_le_top c.offset.micros
    exact ⟨⟨all, trivial, inside, by omega⟩, exactly, rfl, by simp only; omega⟩
  · obtain ⟨⟨all, inside⟩, exactly, least, rfl⟩ := laid
    have by_step : c.style.advance (.chord ms) = step.micros.toNat := by
      rw [Style.advance]
      exact congrArg (Option.getD · 0) least.symm
    have advanced := meets_advanceAfter { c with style := c.style.afterMembers ms } events step
    unfold Offset.HasRoom at advanced
    simp only
    generalize advanceAfter { c with style := c.style.afterMembers ms } events step = outcome
      at advanced ⊢
    rcases outcome with ⟨e | laid, next⟩
    · refine fun fits => advanced ?_
      have room := fits.2.2.2
      simp only
      omega
    · obtain ⟨room, rfl, rfl⟩ := advanced
      have sum := Offset.toNat_add_of_hasRoom room
      simp only at room sum
      exact ⟨⟨all, trivial, inside, by omega⟩, exactly, rfl, by simp only; omega⟩

/-- What is done in a style and lays nothing out. -/
theorem meets_restyle {m : Move} {change : Except ScoreError Style} (silent : m.members = [])
    (done : ∀ s, change = .ok s → m.InRange ∧ s = c.style.after m)
    (failed : ∀ e, change = .error e → ¬m.InRange) :
    Meets (c.style.Fits c.offset.micros.toNat [m]) (AsWritten id c m) (c.restyle change) := by
  have bound := Saturating.toNat_le_top c.offset.micros
  have still : c.style.advance m = 0 := by
    rw [Style.advance, silent]
    rfl
  cases change with
  | error e => exact fun fits => failed e rfl (fits.settings m List.mem_cons_self)
  | ok s =>
      obtain ⟨inRange, rfl⟩ := done s rfl
      refine ⟨(Style.fits_singleton _ _ m).mpr ⟨?_, inRange, ?_, by omega⟩, ?_, rfl, ?_⟩
      · rw [Move.noteValues, silent]
        exact fun v member => absurd member List.not_mem_nil
      · rw [silent]
        exact fun k member => absurd member List.not_mem_nil
      · rw [silent]
        exact .nil
      · rw [still]
        rfl

theorem meets_octave (id : PartId) (c : Cursor) (change : OctaveChange)
    (inside : (c.style.after (.octave change)).OctaveInside) :
    Meets (c.style.Fits c.offset.micros.toNat [.octave change]) (AsWritten id c (.octave change))
      (c.move id (.octave change)) := by
  have restyled : c.move id (.octave change) = c.restyle (c.style.changeOctave change) := rfl
  rw [restyled]
  apply meets_restyle rfl
  · intro s done
    cases change with
    | set n =>
        simp only [Style.changeOctave, Style.mem_octaves_iff] at done
        by_cases few : n.toNat ≤ 9
        · rw [if_pos few, Except.ok.injEq] at done
          have after : c.style.after (.octave (.set n)) =
              if n.toNat ≤ 9 then { c.style with octave := n.toNat } else c.style := rfl
          rw [if_pos few] at after
          exact ⟨few, done.symm.trans after.symm⟩
        · rw [if_neg few] at done
          cases done
    | up =>
        simp only [Style.changeOctave, Except.ok.injEq] at done
        have next : min (c.style.octave + 1) Style.highestOctave = c.style.octave + 1 :=
          min_eq_left (Int.le_of_lt inside.2)
        rw [next] at done
        exact ⟨trivial, done.symm⟩
    | down =>
        simp only [Style.changeOctave, Except.ok.injEq] at done
        have next : max (c.style.octave - 1) Style.lowestOctave = c.style.octave - 1 :=
          max_eq_left (Int.le_of_lt inside.1)
        rw [next] at done
        exact ⟨trivial, done.symm⟩
  · intro e failed
    cases change with
    | set n =>
        simp only [Style.changeOctave, Style.mem_octaves_iff] at failed
        by_cases few : n.toNat ≤ 9
        · rw [if_pos few] at failed
          cases failed
        · exact few
    | up | down =>
        simp only [Style.changeOctave, reduceCtorEq] at failed

theorem meets_set (id : PartId) (c : Cursor) (name : String) (value : Float) :
    Meets (c.style.Fits c.offset.micros.toNat [.set name value]) (AsWritten id c (.set name value))
      (c.move id (.set name value)) := by
  have restyled : c.move id (.set name value) = c.restyle (c.style.set name value) := rfl
  have after : c.style.after (.set name value) =
      (((Attribute.ofName? name).bind (·.put? value)).getD fun s => s) c.style := rfl
  rw [restyled]
  unfold Style.set
  rw [Style.change_eq]
  cases named : Attribute.ofName? name with
  | none =>
      apply meets_restyle rfl
      · intro s done
        cases done
      · rintro e - ⟨a, same, -⟩
        rw [named] at same
        cases same
  | some a =>
      have takes := a.put?_isSome_iff value
      simp only
      cases taken : a.put? value with
      | none =>
          apply meets_restyle rfl
          · intro s done
            cases done
          · rintro e - ⟨b, same, inRange⟩
            rw [named] at same
            cases same
            rw [taken] at takes
            exact Bool.false_ne_true (takes.mpr inRange)
      | some set =>
          apply meets_restyle rfl
          · intro s done
            cases done
            rw [taken] at takes
            refine ⟨⟨a, named, takes.mp rfl⟩, ?_⟩
            rw [after, named, Option.bind_some, taken]
            rfl
          · intro e failed
            cases failed

/-- A move can be made if and only if it fits, and then it lays out what is written. -/
theorem meets_move (id : PartId) (c : Cursor) (m : Move)
    (inside : (c.style.after m).OctaveInside) :
    Meets (c.style.Fits c.offset.micros.toNat [m]) (AsWritten id c m) (c.move id m) := by
  cases m with
  | note n =>
      have single : c.move id (.note n) = c.move id (.chord [.note n]) := by
        simp only [move, members, member]
        rcases c.sound id n with ⟨e | ⟨e, step⟩, next⟩ <;> rfl
      have chord := meets_chord id c [.note n]
      rw [Style.fits_singleton] at chord ⊢
      rw [single]
      exact chord
  | rest length =>
      have single : c.move id (.rest length) = c.move id (.chord [.rest length]) := by
        simp only [move, members, member]
        rcases c.step length with ⟨e | step, next⟩ <;> rfl
      have chord := meets_chord id c [.rest length]
      rw [Style.fits_singleton] at chord ⊢
      rw [single]
      exact chord
  | chord ms => exact meets_chord id c ms
  | octave change => exact meets_octave id c change inside
  | set name value => exact meets_set id c name value

/-- Moves can be made one after another if and only if all that is written fits, and then they lay
out what is written. -/
theorem meets_play (id : PartId) (moves : List Move) (c : Cursor)
    (inside : ∀ s ∈ c.style.course moves, s.OctaveInside) :
    Meets (c.style.Fits c.offset.micros.toNat moves)
      (fun events next =>
        List.Forall₂ (Event.Exactly id) events (c.style.marks c.offset.micros.toNat moves) ∧
          next.style = moves.foldl Style.after c.style ∧
          next.offset.micros.toNat = c.offset.micros.toNat + (c.style.advances moves).sum)
      (c.play id moves) := by
  induction moves generalizing c with
  | nil =>
      have bound := Saturating.toNat_le_top c.offset.micros
      refine ⟨⟨?_, ?_, ?_, bound⟩, .nil, rfl, rfl⟩
      · exact fun m member => absurd member List.not_mem_nil
      · exact fun m member => absurd member List.not_mem_nil
      · exact fun k member => absurd member List.not_mem_nil
  | cons m moves ih =>
      rw [Style.course, List.forall_mem_cons] at inside
      have first := meets_move id c m inside.1
      rw [Style.fits_cons]
      simp only [play]
      generalize c.move id m = outcome at first ⊢
      rcases outcome with ⟨e | events, next⟩
      · exact fun fits => first fits.1
      · obtain ⟨fits, exactly, style, place⟩ := first
        -- the others begin where the first has led to, in the style that it has left
        have rest := ih next (style ▸ inside.2)
        rw [style, place] at rest
        simp only
        generalize next.play id moves = outcome at rest ⊢
        rcases outcome with ⟨e | more, last⟩
        · exact fun both => rest both.2
        · obtain ⟨fitsRest, exactlyRest, styleLast, placeLast⟩ := rest
          refine ⟨⟨fits, fitsRest⟩, List.rel_append exactly exactlyRest, styleLast, ?_⟩
          rw [placeLast, Style.advances, List.sum_cons, Nat.add_assoc]

end Cursor

namespace Part

/-- As long as the octave stays where numbers of 32 bits are exact, moves can be made in a part if
and only if all that is written fits: every note value lasts a tick, every setting and octave is in
range, every pitch is one that MIDI has, and the sum of all steps from where the part is does not
pass the end of the timeline. Then every note is laid out exactly as it is marked, and the part is
where the sum leads to, in the style that is in force there. -/
theorem timeline {p : Part} {moves : List Move}
    (inside : ∀ s ∈ p.cursor.style.course moves, s.OctaveInside) :
    let start := p.cursor.offset.micros.toNat
    ((∃ events q, p.run (moves.map .move) = (.ok events, q)) ↔ p.cursor.style.Fits start moves) ∧
      ∀ events q, p.run (moves.map .move) = (.ok events, q) →
        List.Forall₂ (Event.Exactly p.id) events (p.cursor.style.marks start moves) ∧
          q = { p with cursor := q.cursor } ∧
          q.cursor.style = moves.foldl Style.after p.cursor.style ∧
          q.cursor.offset.micros.toNat = start + (p.cursor.style.advances moves).sum := by
  intro start
  have meets := Cursor.meets_play p.id moves p.cursor inside
  rw [run_moves]
  generalize p.cursor.play p.id moves = outcome at meets ⊢
  rcases outcome with ⟨e | laid, last⟩
  · refine ⟨iff_of_false ?_ meets, ?_⟩
    · rintro ⟨events, q, done⟩
      cases done
    · intro events q done
      cases done
  · obtain ⟨fits, exactly, style, place⟩ := meets
    refine ⟨iff_of_true ⟨laid, _, rfl⟩ fits, ?_⟩
    intro events q done
    cases done
    exact ⟨exactly, rfl, style, place⟩

def soloistAt (start : UInt64) : Part :=
  { soloist with cursor := { soloist.cursor with offset := ⟨start⟩ } }

/-- A chord in which a length lasts from a rest on, a pitch that only the octave above has, other
tempos, and the highest note at the end. -/
def study : List Move :=
  [.set "tempo" 90.0,
    .chord [.note ⟨'c', 0, some ⟨[⟨3, 1⟩, ⟨16, 0⟩]⟩⟩, .rest (some ⟨[⟨8, 0⟩]⟩),
      .note ⟨'e', -1, none⟩],
    .octave .up, .set "quant" 33.0, .note ⟨'g', 1, none⟩, .set "tempo" 120.0, .rest none,
    .octave (.set 9), .set "vol" 40.0, .note ⟨'g', 0, some ⟨[⟨32, 2⟩]⟩⟩]

/-- Moves that lead to the very end of the timeline, and cannot be made a microsecond later. -/
theorem timeline_study :
    let p := soloistAt 18446744073708525574
    let late := soloistAt 18446744073708525575
    (∀ s ∈ soloist.cursor.style.course study, s.OctaveInside) ∧
      (∃ events q, p.run (study.map .move) = (.ok events, q) ∧
        events.map (·.pitch) = [60, 63, 80, 127] ∧
        List.Forall₂ (Event.Exactly p.id) events
          (p.cursor.style.marks p.cursor.offset.micros.toNat study) ∧
        q.cursor.offset.micros.toNat = Saturating.top) ∧
      ¬∃ events q, late.run (study.map .move) = (.ok events, q) := by
  intro p late
  have inside : ∀ s ∈ soloist.cursor.style.course study, s.OctaveInside := by decide +kernel
  have total : (soloist.cursor.style.advances study).sum = 1026041 := by decide +kernel
  have pitches : (p.run (study.map .move)).1.toOption.map (·.map (·.pitch)) =
      some [60, 63, 80, 127] := by
    decide +kernel
  have start : p.cursor.offset.micros.toNat = 18446744073708525574 := rfl
  have startLate : late.cursor.offset.micros.toNat = 18446744073708525575 := rfl
  obtain ⟨-, exactly⟩ := timeline (p := p) inside
  obtain ⟨fits, -⟩ := timeline (p := late) inside
  refine ⟨inside, ?_, fun made => ?_⟩
  · rcases ran : p.run (study.map .move) with ⟨e | events, q⟩
    · rw [ran] at pitches
      cases pitches
    · rw [ran] at pitches
      obtain ⟨marked, -, -, place⟩ := exactly events q ran
      have reached : q.cursor.offset.micros.toNat =
          p.cursor.offset.micros.toNat + (soloist.cursor.style.advances study).sum := place
      rw [start, total] at reached
      refine ⟨events, q, rfl, Option.some.inj pitches, marked, ?_⟩
      rw [reached]
      rfl
  · have room := (fits.mp made).room
    have passed : late.cursor.offset.micros.toNat + (soloist.cursor.style.advances study).sum ≤
        Saturating.top := room
    rw [startLate, total] at passed
    exact absurd passed (by decide)

end Part

end Songline
