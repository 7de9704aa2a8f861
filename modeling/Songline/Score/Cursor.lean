import Songline.Pitch
import Songline.Score.Event
import Songline.Score.Style

set_option autoImplicit false

namespace Songline

/-- Where a part has got to on the timeline, and with which attributes. What an operation does
before it fails stays done. -/
structure Cursor where
  style : Style
  offset : Offset
deriving DecidableEq, Repr

/-- What can be laid out at a cursor. -/
inductive Move
  | note (note : Note)
  | rest (length : Option Length)
  | chord (members : List ChordMember)
  | octave (change : OctaveChange)
  | set (name : String) (value : Float)
deriving DecidableEq, Repr

namespace Cursor

/-- The stretch of time of a note or rest. A written length becomes that of the notes after it. -/
def step (c : Cursor) : Option Length → Except ScoreError Offset × Cursor
  | none => (.ok (c.style.length.atTempo c.style.tempo), c)
  | some l =>
    match Beat.ofLength l with
    | .error denominator => (.error (.invalidLength denominator), c)
    | .ok beat =>
      (.ok (beat.atTempo c.style.tempo), { c with style := { c.style with length := beat } })

/-- The event of a note at the cursor, and the stretch of time to the next. -/
def sound (id : PartId) (c : Cursor) (n : Note) : Except ScoreError (Event × Offset) × Cursor :=
  match c.step n.length with
  | (.error e, c) => (.error e, c)
  | (.ok step, c) =>
    match Pitch.midi? n.letter n.accidentals c.style.octave with
    | none => (.error (.pitchOutOfRange n.letter c.style.octave), c)
    | some pitch =>
      (.ok (⟨c.offset, id, pitch, step.percent c.style.quant.value, c.style.volume.value⟩, step), c)

/-- The event of a chord member, if it is a note, and its stretch of time. -/
def member (id : PartId) (c : Cursor) :
    ChordMember → Except ScoreError (List Event × Offset) × Cursor
  | .note n =>
    match c.sound id n with
    | (.ok (e, step), c) => (.ok ([e], step), c)
    | (.error e, c) => (.error e, c)
  | .rest l =>
    match c.step l with
    | (.ok step, c) => (.ok ([], step), c)
    | (.error e, c) => (.error e, c)

/-- The events of chord members and the shortest of their stretches. -/
def members (id : PartId) (c : Cursor) (shortest : Option Offset) :
    List ChordMember → Except ScoreError (List Event × Option Offset) × Cursor
  | [] => (.ok ([], shortest), c)
  | m :: ms =>
    match c.member id m with
    | (.error e, c) => (.error e, c)
    | (.ok (events, step), c) =>
      match members id c (some ((shortest.map (·.min step)).getD step)) ms with
      | (.error e, c) => (.error e, c)
      | (.ok (more, shortest), c) => (.ok (events ++ more, shortest), c)

/-- Moves on along the timeline, as far as it goes. -/
def advance (c : Cursor) (step : Offset) : Except ScoreError Unit × Cursor :=
  match c.offset.add? step with
  | some offset => (.ok (), { c with offset := offset })
  | none => (.error .timelineOverflow, c)

/-- Moves on, and reports the events laid out before. -/
def advanceAfter (c : Cursor) (events : List Event) (step : Offset) :
    Except ScoreError (List Event) × Cursor :=
  match c.advance step with
  | (.ok (), c) => (.ok events, c)
  | (.error e, c) => (.error e, c)

def restyle (c : Cursor) : Except ScoreError Style → Except ScoreError (List Event) × Cursor
  | .ok style => (.ok [], { c with style := style })
  | .error e => (.error e, c)

/-- Lays a move out. A chord moves on by its shortest member. -/
def move (id : PartId) (c : Cursor) : Move → Except ScoreError (List Event) × Cursor
  | .note n =>
    match c.sound id n with
    | (.ok (e, step), c) => c.advanceAfter [e] step
    | (.error e, c) => (.error e, c)
  | .rest l =>
    match c.step l with
    | (.ok step, c) => c.advanceAfter [] step
    | (.error e, c) => (.error e, c)
  | .chord ms =>
    match c.members id none ms with
    | (.ok (events, some step), c) => c.advanceAfter events step
    | (.ok (events, none), c) => (.ok events, c)
    | (.error e, c) => (.error e, c)
  | .octave change => c.restyle (c.style.changeOctave change)
  | .set name value => c.restyle (c.style.set name value)

end Cursor

end Songline
