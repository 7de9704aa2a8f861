import Songline.Notation.Token

set_option autoImplicit false

namespace Songline

/-- `violin/viola "strings":` -/
structure PartDecl where
  names : List String
  nick : Option String
deriving DecidableEq, Repr

inductive ChordMember
  | note (note : Note)
  | rest (length : Option Length)
deriving DecidableEq, Repr

inductive OctaveChange
  | set (n : UInt32)
  | up
  | down
deriving DecidableEq, Repr

/-- `(tempo 90)`, or `(tempo! 90)` for every part. -/
structure Setting where
  name : String
  value : Float
  everywhere : Bool
deriving DecidableEq, Repr

/-- What a line of notation says. Nesting appears only in sequences and repeats. -/
inductive Form
  /-- Selects parts, and creates those that do not exist. -/
  | part (decl : PartDecl)
  | note (note : Note)
  | rest (length : Option Length)
  /-- Notes and rests that start together. -/
  | chord (members : List ChordMember)
  | octave (change : OctaveChange)
  | setting (setting : Setting)
  /-- Switches to a voice; voice 0 ends the group. -/
  | voice (n : UInt32)
  | sequence (forms : List Form)
  | repeated (form : Form) (times : UInt32)

namespace Form

/-- A single note or rest stands for itself, several make a chord. -/
def ofMembers : List ChordMember → Form
  | [.note n] => .note n
  | [.rest l] => .rest l
  | members => .chord members

end Form

end Songline
