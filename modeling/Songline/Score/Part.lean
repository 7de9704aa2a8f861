import Songline.Score.Catalogue
import Songline.Score.Cursor

set_option autoImplicit false

namespace Songline

/-- Who plays a part: its name, its stock instrument and the sound family of that. -/
structure Player where
  name : String
  instrument : String
  patch : Patch
deriving DecidableEq, Repr

/-- An open group of voices: the cursor when it was opened, the voice that the part's cursor
belongs to, and the cursors of the others. -/
structure VoiceGroup where
  opening : Cursor
  active : UInt32
  parked : List (UInt32 × Cursor)
deriving DecidableEq, Repr

/-- An instrument of the score. Voices of a group start together, and the part goes on after the one
that got furthest. -/
structure Part where
  id : PartId
  player : Player
  cursor : Cursor
  voices : Option VoiceGroup
deriving DecidableEq, Repr

/-- What can be done in a part. -/
inductive Part.Action
  | move (move : Move)
  | voice (n : UInt32)
  | closeVoices
deriving DecidableEq, Repr

namespace VoiceGroup

def park (g : VoiceGroup) (c : Cursor) : List (UInt32 × Cursor) :=
  (g.active, c) :: g.parked.filter (·.1 ≠ g.active)

/-- Parks the active voice and takes up another: where it was parked, or at the opening. -/
def switch (g : VoiceGroup) (c : Cursor) (n : UInt32) : Cursor × VoiceGroup :=
  let parked := g.park c
  ((parked.lookup n).getD g.opening, { g with active := n, parked := parked.filter (·.1 ≠ n) })

end VoiceGroup

namespace Part

def new (id : PartId) (player : Player) (style : Style) : Part :=
  ⟨id, player, ⟨style, .zero⟩, none⟩

/-- Ends the group of voices, and moves the part to the furthest. -/
def closeVoices (p : Part) : Part :=
  match p.voices with
  | none => p
  | some g =>
    { p with
      cursor :=
        { p.cursor with offset := (g.parked.map (·.2.offset)).foldl Offset.max p.cursor.offset }
      voices := none }

/-- Switches to a voice, and opens a group if there is none. Voice 0 ends the group. -/
def voice (p : Part) (n : UInt32) : Part :=
  if n = 0 then p.closeVoices
  else
    match p.voices with
    | none => { p with voices := some ⟨p.cursor, n, []⟩ }
    | some g =>
      if g.active = n then p
      else
        let (cursor, group) := g.switch p.cursor n
        { p with cursor := cursor, voices := some group }

def act (p : Part) : Action → Except ScoreError (List Event) × Part
  | .move m =>
    let (result, cursor) := p.cursor.move p.id m
    (result, { p with cursor := cursor })
  | .voice n => (.ok [], p.voice n)
  | .closeVoices => (.ok [], p.closeVoices)

/-- Acts until something fails; gives the events of all actions. -/
def run (p : Part) : List Action → Except ScoreError (List Event) × Part
  | [] => (.ok [], p)
  | a :: rest =>
    match p.act a with
    | (.error e, p) => (.error e, p)
    | (.ok events, p) =>
      match p.run rest with
      | (.error e, p) => (.error e, p)
      | (.ok more, p) => (.ok (events ++ more), p)

def restyle (p : Part) (change : Style → Style) : Part :=
  { p with cursor := { p.cursor with style := change p.cursor.style } }

end Part

end Songline
