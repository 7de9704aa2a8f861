import Songline.Notation.Token
import Songline.Number.Binary
import Songline.Time.Offset

set_option autoImplicit false

namespace Songline

/-- A length in ticks, 960 to a quarter, so that dots and triplets stay exact. -/
structure Beat where
  ticks : UInt64
deriving DecidableEq, Repr

namespace Beat

def ticksPerBeat : Nat := 960

def ticksPerWhole : Nat := 4 * ticksPerBeat

def zero : Beat := ⟨0⟩

def quarter : Beat := ⟨960⟩

instance : Ord Beat := ⟨fun a b => compare a.ticks b.ticks⟩

instance : Add Beat := ⟨fun a b => ⟨Saturating.add a.ticks b.ticks⟩⟩

instance : Sub Beat := ⟨fun a b => ⟨Saturating.sub a.ticks b.ticks⟩⟩

theorem toNat_add (a b : Beat) :
    (a + b).ticks.toNat = min (a.ticks.toNat + b.ticks.toNat) Saturating.top :=
  Saturating.toNat_add a.ticks b.ticks

def scale (a : Beat) (n : UInt32) : Beat := ⟨Saturating.mul a.ticks n.toUInt64⟩

/-- The length in quarters. -/
def beats (a : Beat) : Float := a.ticks.toFloat / 960.0

/-- A whole note divided by a note value, to the nearest tick, a half going up. -/
def baseTicks (denominator : UInt32) : Nat :=
  (2 * ticksPerWhole + denominator.toNat) / (2 * denominator.toNat)

/-- Adds what the dots add: each half of the addition before it, rounded down. No dot adds
anything once that is nothing. -/
def dotted (addition : Nat) : Nat → Nat
  | 0 => 0
  | dots + 1 => if addition / 2 = 0 then 0 else addition / 2 + dotted (addition / 2) dots

/-- The length of a note value, unless it lasts no tick. -/
def ofNoteValue? (v : NoteValue) : Option Beat :=
  if v.denominator = 0 then none
  else
    let base := baseTicks v.denominator
    if base = 0 then none else some ⟨UInt64.ofNat (base + dotted base v.dots)⟩

/-- The length of tied note values, or the first of them that lasts no tick. -/
def ofLength (l : Length) : Except UInt32 Beat :=
  l.values.foldlM
    (fun total v =>
      match ofNoteValue? v with
      | some b => .ok (total + b)
      | none => .error v.denominator)
    zero

/-- The stretch of time that a length takes at a tempo in quarters per minute. -/
def atTempo (a : Beat) (tempo : Float) : Offset :=
  ⟨Number.roundToCount (a.ticks.toFloat * 60000000.0 / (960.0 * tempo))⟩

end Beat

end Songline
