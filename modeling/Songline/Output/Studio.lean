import Songline.Output.Engine
import Songline.Output.Takes
import Songline.Session.Command
import Songline.Sound.Rack

set_option autoImplicit false

namespace Songline

/-- Plays what the shell hands over: to the output device, into a take, or nowhere. -/
structure Studio where
  rack : Rack
  flags : Mixer.Flags
  engine : Option Engine
  takes : Option Takes
  /-- The path of the last take. -/
  lastTake : Option String
  /-- The output device that opening would meet. -/
  device : Option Device
  disk : Disk

namespace Studio

def ofSeed (seed : UInt64) (device : Option Device) (disk : Disk) : Studio :=
  ⟨.empty seed, .clear, none, none, none, device, disk⟩

instance : HasDisk Studio := ⟨Studio.disk, fun s d => { s with disk := d }⟩

/-- Whether there are samples that the device has not played yet. -/
def isPlaying (s : Studio) : Bool := s.engine.isSome && s.flags.pending > 0

def stop (s : Studio) : Studio := { s with flags := { s.flags with stop := true } }

def openEngine (s : Studio) : Except AudioError Engine :=
  match s.engine with
  | some engine => .ok engine
  | none => Engine.start s.device

def playLive (s : Studio) (p : Playback) (volume : Float32) : Except AudioError Unit × Studio :=
  match s.openEngine with
  | .error e => (.error e, s)
  | .ok engine =>
    let (result, engine) := engine.mix volume (p.mixdown s.rack engine.format)
    (result, { s with engine := some engine })

def takeFormat : SoundFormat := ⟨44100, 2⟩

/-- The takes of a directory: those before, if it is the same directory, or a fresh start. -/
def takesIn (s : Studio) (dir : String) : Takes :=
  match s.takes with
  | some takes => if Path.parts takes.dir = Path.parts dir then takes else .ofDir dir takeFormat
  | none => .ofDir dir takeFormat

/-- The samples of a take: at the volume, and limited. -/
def takeSamples (s : Studio) (p : Playback) (format : SoundFormat) (volume : Float32) : Samples :=
  (p.mixdown s.rack format).map fun x => Limiter.standard.limit (x * volume)

def writeTake (s : Studio) (dir : String) (p : Playback) (volume : Float32) :
    Except AudioError Unit × Studio :=
  let takes := s.takesIn dir
  match takes.write (s.takeSamples p takes.format volume) s.disk with
  | (.ok path, takes, disk) =>
    (.ok (), { s with takes := some takes, lastTake := some path, disk := disk })
  | (.error e, takes, disk) => (.error e, { s with takes := some takes, disk := disk })

def sink : Sink Studio where
  prepare p s := (.ok (), { s with rack := (s.rack.load p).1 })
  perform p options s :=
    let volume := Number.clampUnit options.volume
    match options.target with
    | .silent => (.ok (), s)
    | .live => s.playLive p volume
    | .wav dir => s.writeTake dir p volume

/-- The device asks for `n` samples, if it is open. -/
def pump (s : Studio) (n : Nat) : Option (Samples × Studio) :=
  s.engine.map fun engine =>
    let (out, stream, flags) := engine.stream.process s.flags n
    (out, { s with engine := some { engine with stream := stream }, flags := flags })

end Studio

end Songline
