import Songline.Number.Binary
import Songline.Sound.Samples

set_option autoImplicit false

namespace Songline

/-- Keeps samples below a ceiling. Those below the knee pass as they are, and those above bend
smoothly towards the ceiling. -/
structure Limiter where
  ceiling : Float32
  /-- Where bending starts. -/
  knee : Float32

namespace Limiter

/-- A limiter whose knee is a share of its ceiling. -/
def ofShare (ceiling share : Float32) : Limiter := ⟨ceiling, ceiling * share⟩

def standard : Limiter := ofShare 0.95 0.8

def withSign (magnitude sample : Float32) : Float32 :=
  if sample.toBits >>> 31 = 1 then -magnitude.abs else magnitude.abs

def limit (l : Limiter) (sample : Float32) : Float32 :=
  let magnitude := sample.abs
  if magnitude ≤ l.knee then sample
  else
    let room := l.ceiling - l.knee
    let excess := (magnitude - l.knee) / room
    let bent := l.knee + room * excess.tanh
    withSign (if bent < l.ceiling then bent else l.ceiling) sample

end Limiter

namespace Mixer

inductive Command
  /-- Adds samples to what is played, from the next one on. -/
  | mix (samples : Samples)
  /-- Sets the gain of the whole. -/
  | volume (gain : Float32)
  /-- Drops what is not played yet. -/
  | silence

/-- Commands that wait, the oldest first, and how many may wait. -/
structure Queue where
  capacity : Nat
  waiting : List Command

namespace Queue

def empty (capacity : Nat) : Queue := ⟨capacity, []⟩

/-- The queue with one more command, unless it is full. -/
def push? (q : Queue) (c : Command) : Option Queue :=
  if q.waiting.length < q.capacity then some { q with waiting := q.waiting ++ [c] } else none

end Queue

/-- What the mixer and the shell tell each other. -/
structure Flags where
  /-- A request to drop what is not played yet; the mixer takes it back. -/
  stop : Bool
  /-- How many samples were not played yet when the device last asked. -/
  pending : Nat
deriving DecidableEq, Repr

def Flags.clear : Flags := ⟨false, 0⟩

end Mixer

/-- What an output device plays: a buffer of samples, mixed as commands come in. -/
structure Mixer where
  buffer : Samples
  /-- How much of the buffer has been played. -/
  position : Nat
  volume : Float32

namespace Mixer

def fresh : Mixer := ⟨#[], 0, 1.0⟩

def unplayed (m : Mixer) : Samples := m.buffer.extract m.position m.buffer.size

def remaining (m : Mixer) : Nat := m.buffer.size - m.position

def clear (m : Mixer) : Mixer := { m with buffer := #[], position := 0 }

def carryOut (m : Mixer) : Command → Mixer
  | .mix samples => { m with buffer := Samples.mixAt m.position samples m.buffer }
  | .volume gain => { m with volume := Number.clampUnit gain }
  | .silence => m.clear

def heed (stop : Bool) (m : Mixer) : Mixer := if stop then m.clear else m

/-- The next `n` samples: what is left of the buffer at the volume, then silence, all limited. -/
def play (m : Mixer) (n : Nat) : Samples × Mixer :=
  let played := m.buffer.extract m.position (m.position + n)
  let out := Samples.padTo n (played.map (· * m.volume))
  (out.map Limiter.standard.limit, { m with position := m.position + played.size })

/-- Samples that have been played are kept up to this many. -/
def keepAtMost : Nat := 8192

/-- Drops the samples that have been played, if there are many. -/
def compact (m : Mixer) : Mixer :=
  if m.position < keepAtMost then m else { m with buffer := m.unplayed, position := 0 }

end Mixer

/-- A mixer and the queue of its commands. -/
structure Stream where
  mixer : Mixer
  queue : Mixer.Queue

namespace Stream

def ofCapacity (capacity : Nat) : Stream := ⟨.fresh, .empty capacity⟩

/-- The stream with one more command waiting, unless its queue is full. -/
def push? (s : Stream) (c : Mixer.Command) : Option Stream :=
  (s.queue.push? c).map fun q => { s with queue := q }

/-- The device asks for `n` samples. -/
def process (s : Stream) (flags : Mixer.Flags) (n : Nat) : Samples × Stream × Mixer.Flags :=
  let mixer := (s.queue.waiting.foldl Mixer.carryOut s.mixer).heed flags.stop
  let (out, mixer) := mixer.play n
  let mixer := mixer.compact
  (out, ⟨mixer, .empty s.queue.capacity⟩, ⟨false, mixer.remaining⟩)

end Stream

end Songline
