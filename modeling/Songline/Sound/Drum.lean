import Songline.Score.Event
import Songline.Sound.Noise
import Songline.Sound.Samples
import Songline.Sound.Waveform

set_option autoImplicit false

namespace Songline

/-- Drums of the General MIDI map. A hit rings for its natural length, whatever the length of its
note. -/
inductive Drum
  | kick
  | snare
  | clap
  | closedHat
  | openHat
  | cymbal
  /-- A pitched membrane, by the frequency in Hz that it starts from. -/
  | tom (frequency : Float)
deriving DecidableEq, Repr

namespace Drum

def clampTom (frequency : Float) : Float :=
  if frequency < 60.0 then 60.0 else if frequency > 1000.0 then 1000.0 else frequency

/-- The drum of a key. Keys outside of the map play a tom at their own pitch. -/
def ofPitch (pitch : UInt8) : Drum :=
  match pitch.toNat with
  | 35 | 36 => kick
  | 38 | 40 => snare
  | 37 | 39 => clap
  | 42 | 44 => closedHat
  | 46 => openHat
  | 49 | 51 | 52 | 55 | 57 | 59 => cymbal
  | 41 => tom 90.0
  | 43 => tom 110.0
  | 45 => tom 130.0
  | 47 => tom 160.0
  | 48 => tom 190.0
  | 50 => tom 220.0
  | _ => tom (clampTom (Tuning.frequency pitch))

/-- The whole samples in a stretch of seconds. -/
def count (rate : UInt32) (seconds : Float) : Nat := (rate.toFloat * seconds).toUInt64.toNat

/-- A sine whose pitch falls from `base + sweep` to `base` while it dies away. -/
def swept (rate : UInt32) (seconds base sweep decay : Float) : Samples :=
  Samples.generate (count rate seconds) (0.0 : Float) fun i phase =>
    let norm := i.toFloat / rate.toFloat / seconds
    let frequency := base + sweep * (-norm * 8.0).exp
    let phase := phase + frequency / rate.toFloat
    ((phase * 2.0 * Waveform.pi).sin * (-norm * decay).exp, phase)

/-- A low sine under noise, each with a decay of its own. -/
def snareHit (rate : UInt32) (seed : UInt64) : Samples :=
  let n := count rate 0.2
  let noise := Noise.samples seed n
  Samples.generate n (0.0 : Float) fun i phase =>
    let norm := i.toFloat / rate.toFloat / 0.2
    let phase := phase + 180.0 / rate.toFloat
    let body := (phase * 2.0 * Waveform.pi).sin * (-norm * 15.0).exp
    let hiss := noise.getD i 0.0 * (-norm * 12.0).exp
    (body * 0.5 + hiss * 0.5, phase)

def hatHit (rate : UInt32) (seed : UInt64) (seconds : Float) : Samples :=
  let n := count rate seconds
  let noise := Noise.samples seed n
  Samples.generate n ((0.0, 0.0) : Float × Float) fun i (input, output) =>
    let norm := i.toFloat / rate.toFloat / seconds
    let x := noise.getD i 0.0
    let y := 0.85 * (output + x - input)
    (y * (-norm * 6.0).exp, (x, y))

/-- A clap while it is made: its samples, and how much noise has been used up. -/
structure ClapState where
  out : Samples
  used : Nat
  filtered : Float

def burstSeconds : Float := 0.01

def burst (rate : UInt32) (noise : Array Float) (s : ClapState) (time : Float) : ClapState :=
  let start := (time * rate.toFloat).toUInt64.toNat
  let stop := min ((time + burstSeconds) * rate.toFloat).toUInt64.toNat s.out.size
  (List.range (stop - start)).foldl
    (fun s k =>
      let level := (-(k.toFloat / (burstSeconds * rate.toFloat)) * 15.0).exp
      let x := noise.getD s.used 0.0 * level * 0.7
      { s with out := s.out.modify (start + k) (· + x.toFloat32), used := s.used + 1 })
    s

/-- Adds the tail: low-passed noise that dies away. -/
def clapTail (rate : UInt32) (noise : Array Float) (s : ClapState) : ClapState :=
  let start := (0.04 * rate.toFloat).toUInt64.toNat
  let alpha := Tuning.smoothing 1200.0 rate
  (List.range (s.out.size - start)).foldl
    (fun s k =>
      let level := (-(k.toFloat / rate.toFloat) * 18.0).exp
      let filtered := s.filtered + alpha * (noise.getD s.used 0.0 - s.filtered)
      let x := filtered * level * 1.5
      ⟨s.out.modify (start + k) (· + x.toFloat32), s.used + 1, filtered⟩)
    s

/-- Three bursts of noise, and a tail. Each of the four takes no more noise than there are
samples. -/
def clapHit (rate : UInt32) (seed : UInt64) : Samples :=
  let n := count rate 0.15
  let noise := Noise.samples seed (4 * n)
  let s := [0.0, 0.015, 0.030].foldl (burst rate noise) ⟨Array.replicate n 0.0, 0, 0.0⟩
  (clapTail rate noise s).out

def hit (rate : UInt32) (seed : UInt64) : Drum → Samples
  | kick => swept rate 0.25 50.0 100.0 10.0
  | snare => snareHit rate seed
  | clap => clapHit rate seed
  | closedHat => hatHit rate seed 0.08
  | openHat => hatHit rate seed 0.3
  | cymbal => hatHit rate seed 0.9
  | tom frequency => swept rate 0.3 frequency (frequency * 0.5) 8.0

def clampSample (x : Float32) : Float32 := if x < -1.0 then -1.0 else if x > 1.0 then 1.0 else x

def mono (seed : UInt64) (e : Event) (rate : UInt32) : Samples :=
  if e.velocity ≤ 0.0 then #[]
  else
    (hit rate (seed + e.pitch.toUInt64) (ofPitch e.pitch)).map fun x => clampSample (x * e.velocity)

end Drum

end Songline
