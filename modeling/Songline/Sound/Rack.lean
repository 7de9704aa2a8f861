import Songline.Playback
import Songline.Sound.Synth

set_option autoImplicit false

namespace Songline

/-- A loaded part: its patch and the synthesizer of that. -/
structure Rack.Slot where
  patch : Patch
  synth : Synth

/-- The synthesizers of the parts that have been loaded. Other parts are silent. -/
structure Rack where
  slots : Std.ExtTreeMap PartId Rack.Slot
  seed : UInt64

namespace Rack

def empty (seed : UInt64) : Rack := ⟨∅, seed⟩

def seedOf (r : Rack) (id : PartId) : UInt64 := r.seed + UInt64.ofNat id.index

def slotFor (r : Rack) (id : PartId) (patch : Patch) : Slot :=
  ⟨patch, .ofPatch (r.seedOf id) patch⟩

/-- Loads a part, unless it is loaded with the same patch. Says whether it was loaded. -/
def loadPart (r : Rack) (id : PartId) (patch : Patch) : Rack × Bool :=
  if (r.slots[id]?.map (·.patch)) = some patch then (r, false)
  else ({ r with slots := r.slots.insert id (r.slotFor id patch) }, true)

/-- Loads parts, and counts those that were not loaded before. -/
def loadParts (r : Rack) : List (PartId × Player) → Rack × Nat
  | [] => (r, 0)
  | (id, player) :: rest =>
    let (r, loaded) := r.loadPart id player.patch
    let (r, n) := r.loadParts rest
    (r, n + loaded.toNat)

def load (r : Rack) (p : Playback) : Rack × Nat := r.loadParts p.parts.toList

def clear (r : Rack) : Rack := { r with slots := ∅ }

def isLoaded (r : Rack) (id : PartId) : Bool := r.slots.contains id

def size (r : Rack) : Nat := r.slots.size

def render (r : Rack) (e : Event) (format : SoundFormat) : Samples :=
  match r.slots[e.part]? with
  | some slot => slot.synth.render e format
  | none => #[]

end Rack

namespace Mixdown

/-- The place of an event's first sample. -/
def place (format : SoundFormat) (e : Event) : Nat :=
  (e.offset.sampleIndex format.rate).toNat * format.channels.toNat

def addEvent (rack : Rack) (format : SoundFormat) (out : Samples) (e : Event) : Samples :=
  let sound := rack.render e format
  if sound.isEmpty then out else Samples.mixAt (place format e) sound out

end Mixdown

/-- The samples of a playback, up to the end of its last sound. -/
def Playback.mixdown (p : Playback) (rack : Rack) (format : SoundFormat) : Samples :=
  p.events.foldl (Mixdown.addEvent rack format) #[]

end Songline
