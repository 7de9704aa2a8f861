import Songline.Output.Mixer
import Songline.Playback
import Songline.Sound.Synth

set_option autoImplicit false

namespace Songline

/-- A step of opening a device. -/
inductive Device.Step
  | config
  | build
  | play
deriving DecidableEq, Repr

/-- The step at which a device fails, and how it tells. -/
structure Device.Fault where
  step : Device.Step
  text : String
deriving DecidableEq, Repr

structure Device where
  format : SoundFormat
  fault : Option Device.Fault
deriving DecidableEq, Repr

def Device.Fault.error (f : Device.Fault) : AudioError :=
  match f.step with
  | .config => .deviceConfig f.text
  | .build => .streamBuild f.text
  | .play => .streamPlay f.text

/-- An open stream to an output device. -/
structure Engine where
  stream : Stream
  format : SoundFormat

namespace Engine

def capacity : Nat := 64

def start : Option Device → Except AudioError Engine
  | none => .error .noOutputDevice
  | some device =>
    match device.fault with
    | some fault => .error fault.error
    | none => .ok ⟨.ofCapacity capacity, device.format⟩

def push (e : Engine) (c : Mixer.Command) : Except AudioError Engine :=
  match e.stream.push? c with
  | some stream => .ok { e with stream := stream }
  | none => .error .bufferFull

/-- Sets the volume and adds samples. The engine after it is given also if the queue is full, as the
volume may have been taken. -/
def mix (e : Engine) (volume : Float32) (samples : Samples) : Except AudioError Unit × Engine :=
  match e.push (.volume volume) with
  | .error error => (.error error, e)
  | .ok e =>
    match e.push (.mix samples) with
    | .error error => (.error error, e)
    | .ok e => (.ok (), e)

end Engine

end Songline
