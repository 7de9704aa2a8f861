import Songline.Score.Score

set_option autoImplicit false

namespace Songline

inductive AudioError
  | noOutputDevice
  | deviceConfig (cause : String)
  | streamBuild (cause : String)
  | streamPlay (cause : String)
  /-- The device has not taken the commands that wait for it. -/
  | bufferFull
  | wav (cause : String)
deriving DecidableEq, Repr

def AudioError.message : AudioError → String
  | noOutputDevice => "no audio output device found"
  | deviceConfig cause => "device config error: " ++ cause
  | streamBuild cause => "stream build error: " ++ cause
  | streamPlay cause => "stream play error: " ++ cause
  | bufferFull => "audio command ring buffer is full"
  | wav cause => "WAV error: " ++ cause

namespace Event

def earliest? : List Event → Option Offset
  | [] => none
  | e :: es => some (es.foldl (fun first e => first.min e.offset) e.offset)

/-- Moves events together so that the first starts the timeline. -/
def normalize (events : List Event) : List Event :=
  match earliest? events with
  | none => []
  | some first => events.map fun e => e.movedTo (e.offset - first)

end Event

/-- Events to be played, and the players of the parts that occur in them. -/
structure Playback where
  events : List Event
  parts : PartTable

namespace Playback

def ofEvents (events : List Event) (score : Score) : Playback :=
  ⟨events, score.parts.filter fun id _ => events.any (·.part = id)⟩

def duration (p : Playback) : Offset := Offset.latest (p.events.map Event.ending)

/-- Where the sound of a playback goes. -/
inductive Target
  /-- The output device. -/
  | live
  /-- A numbered file in a directory. -/
  | wav (dir : String)
  | silent
deriving DecidableEq, Repr

structure Options where
  target : Target
  /-- Load the instruments of parts that have none yet. -/
  loadInstruments : Bool
  /-- The gain of the whole, from 0 to 1. -/
  volume : Float32

namespace Options

def silent : Options := ⟨.silent, true, 1.0⟩

end Options

end Playback

/-- What plays a score, in a world that it may change. -/
structure Sink (World : Type) where
  /-- Makes the instruments of a playback ready. -/
  prepare : Playback → World → Except AudioError Unit × World
  /-- Plays from the start. -/
  perform : Playback → Playback.Options → World → Except AudioError Unit × World

/-- Hands events over: instruments first, if they are to be loaded, and then the sound. -/
def Sink.dispatch {World : Type} (sink : Sink World) (options : Playback.Options)
    (events : List Event) (score : Score) (w : World) : Except AudioError Playback × World :=
  let playback := Playback.ofEvents events score
  let (prepared, w) := if options.loadInstruments then sink.prepare playback w else (.ok (), w)
  match prepared with
  | .error e => (.error e, w)
  | .ok () =>
    match sink.perform playback options w with
    | (.ok (), w) => (.ok playback, w)
    | (.error e, w) => (.error e, w)

end Songline
