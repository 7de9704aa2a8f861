import Songline.Number.Saturating
import Songline.Number.Shortest

set_option autoImplicit false

namespace Songline

/-- A place on the timeline of a score. Sums and differences stop at the ends of the timeline. -/
structure Offset where
  micros : UInt64
deriving DecidableEq, Repr

namespace Offset

@[ext] theorem ext {a b : Offset} (h : a.micros = b.micros) : a = b := by
  cases a; cases b; cases h; rfl

instance : Ord Offset := ⟨compareOn micros⟩

instance : Std.TransOrd Offset :=
  inferInstanceAs (Std.TransCmp (compareOn Offset.micros))

instance : Std.LawfulEqOrd Offset where
  eq_of_compare h := Offset.ext (Std.LawfulEqOrd.eq_of_compare h)

def zero : Offset := ⟨0⟩

instance : Inhabited Offset := ⟨zero⟩

def ofMillis (millis : UInt64) : Offset := ⟨Saturating.mul millis 1000⟩

def millis (a : Offset) : UInt64 := a.micros / 1000

def seconds (a : Offset) : Float := a.micros.toFloat / 1000000.0

instance : Add Offset := ⟨fun a b => ⟨Saturating.add a.micros b.micros⟩⟩

instance : Sub Offset := ⟨fun a b => ⟨Saturating.sub a.micros b.micros⟩⟩

theorem toNat_add (a b : Offset) :
    (a + b).micros.toNat = min (a.micros.toNat + b.micros.toNat) Saturating.top :=
  Saturating.toNat_add a.micros b.micros

theorem toNat_sub (a b : Offset) :
    (a - b).micros.toNat = a.micros.toNat - b.micros.toNat :=
  Saturating.toNat_sub a.micros b.micros

/-- The sum, unless it passes the end of the timeline. -/
def add? (a b : Offset) : Option Offset := (Saturating.add? a.micros b.micros).map Offset.mk

def min (a b : Offset) : Offset := if a.micros ≤ b.micros then a else b

def max (a b : Offset) : Offset := if a.micros ≤ b.micros then b else a

/-- The given percentage, rounded down. -/
def percent (a : Offset) (p : UInt8) : Offset :=
  ⟨Saturating.ofNat (a.micros.toNat * p.toNat / 100)⟩

/-- The number of the nearest sample at a sample rate, a half going up. -/
def sampleIndex (a : Offset) (rate : UInt32) : UInt64 :=
  UInt64.ofNat ((a.micros.toNat * rate.toNat + 500000) / 1000000)

/-- Milliseconds, with three places unless they are whole. -/
def text (a : Offset) : String :=
  if a.micros % 1000 = 0 then toString a.millis.toNat ++ "ms"
  else Number.fixedText 3 (a.micros.toFloat / 1000.0) ++ "ms"

def latest (offsets : List Offset) : Offset := offsets.foldl max zero

end Offset

end Songline
