import Std.Data.ExtTreeMap
import Songline.Score.Part

set_option autoImplicit false

namespace Songline

abbrev PartTable := Std.ExtTreeMap PartId Player

/-- The events laid out so far and who plays them. -/
structure Score where
  events : EventSet
  parts : PartTable

namespace Score

def empty : Score := ⟨∅, ∅⟩

def eventList (s : Score) : List Event := s.events.toList

def eventsOf (s : Score) (id : PartId) : List Event := s.eventList.filter (·.part = id)

def ending (s : Score) : Offset := s.events.ending

/-- The events of a score that an older one does not have, in their order. -/
def added (older newer : Score) : List Event :=
  newer.eventList.filter fun e => !older.events.contains e

end Score

end Songline
