import Std.Data.ExtTreeSet
import Songline.Time.Offset

set_option autoImplicit false

namespace Songline

/-- The number of a part in its score, counted from 0. It takes 32 bits, which tell no more than
`2 ^ 32` parts apart (`Draft.Ordered.number_inj`). -/
structure PartId where
  index : Nat
deriving DecidableEq, Repr

namespace PartId

@[ext] theorem ext {a b : PartId} (h : a.index = b.index) : a = b := by
  cases a; cases b; cases h; rfl

instance : Ord PartId := ⟨compareOn index⟩

instance : Std.TransOrd PartId :=
  inferInstanceAs (Std.TransCmp (compareOn PartId.index))

instance : Std.LawfulEqOrd PartId where
  eq_of_compare h := PartId.ext (Std.LawfulEqOrd.eq_of_compare h)

def text (id : PartId) : String := "#" ++ toString id.index

end PartId

/-- A note that sounds: its start, its part, its MIDI number, how long it is heard, and its volume
in percent. -/
structure Event where
  offset : Offset
  part : PartId
  pitch : UInt8
  duration : Offset
  volume : UInt8
deriving DecidableEq, Repr

namespace Event

/-- The order of events: by start, then part, pitch, duration and volume. -/
instance : Ord Event :=
  ⟨compareLex (compareOn offset) (compareLex (compareOn part) (compareLex (compareOn pitch)
    (compareLex (compareOn duration) (compareOn volume))))⟩

instance : Std.TransOrd Event :=
  inferInstanceAs (Std.TransCmp
    (compareLex (compareOn Event.offset) (compareLex (compareOn Event.part)
      (compareLex (compareOn Event.pitch)
        (compareLex (compareOn Event.duration) (compareOn Event.volume))))))

theorem compare_def (a b : Event) :
    compare a b =
      (compare a.offset b.offset).then ((compare a.part b.part).then
        ((compare a.pitch b.pitch).then
          ((compare a.duration b.duration).then (compare a.volume b.volume)))) := rfl

instance : Std.LawfulEqOrd Event where
  eq_of_compare {a b} h := by
    simp only [compare_def, Ordering.then_eq_eq, Std.LawfulEqOrd.compare_eq_iff_eq] at h
    obtain ⟨start, part, pitch, duration, volume⟩ := h
    cases a
    cases b
    simp_all

def ending (e : Event) : Offset := e.offset + e.duration

def movedTo (e : Event) (offset : Offset) : Event := { e with offset := offset }

/-- The volume as a factor, at most 1. -/
def velocity (e : Event) : Float32 := (min e.volume 100).toFloat32 / 100.0

end Event

/-- A set of events, listed in their order. -/
abbrev EventSet := Std.ExtTreeSet Event

namespace EventSet

/-- The end of the last sound, or the start of the timeline. -/
def ending (events : EventSet) : Offset := Offset.latest (events.toList.map Event.ending)

end EventSet

end Songline
