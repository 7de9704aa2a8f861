import Songline.Files.Disk
import Songline.Session

set_option autoImplicit false

namespace Songline

/-- Worlds that have a disk. -/
class HasDisk (World : Type) where
  disk : World → Disk
  withDisk : World → Disk → World

inductive Command
  | help
  | quit
  | new
  | score
  | parts
  | play
  | save (path : String)
  | load (path : String)
deriving DecidableEq, Repr

inductive CommandError
  | unknown (name : String)
  | missingPath (command : String)
  | file (path : String) (e : FileError)
  | loading (path : String) (line : Nat) (e : TurnError)
  | audio (e : AudioError)
deriving DecidableEq, Repr

namespace CommandError

def message : CommandError → String
  | unknown name => "unknown command ':" ++ name ++ "' (try :help)"
  | missingPath command => ":" ++ command ++ " needs a file name"
  | file path e => path ++ ": " ++ e.message
  | loading path line e => path ++ ":" ++ toString line ++ ": " ++ e.message
  | audio e => "audio error: " ++ e.message

def causes : CommandError → List String
  | unknown _ | missingPath _ => []
  | file _ e => [e.message]
  | loading _ _ e => e.message :: e.causes
  | audio e => [e.message]

end CommandError

/-- What the shell does after a command. -/
inductive Flow
  | goOn (output : String)
  | leave
deriving DecidableEq, Repr

namespace Command

def helpText : String :=
  String.intercalate "\n"
    ["Type notation to add it to the score, e.g. `piano: c d e` then `f g`.",
      "",
      "  :help          show this help",
      "  :quit          leave (Ctrl-D works too)",
      "  :new           start a fresh score",
      "  :score         print the lines that make up the score",
      "  :parts         list parts and how many notes each has",
      "  :play          play the whole score from the start",
      "  :save <file>   write the score's lines to a file",
      "  :load <file>   evaluate a file line by line, without playing it",
      "",
      "Ctrl-C silences playback."]

def withPath (command path : String) (make : String → Command) : Except CommandError Command :=
  if path = "" then .error (.missingPath command) else .ok (make path)

def ofName (name argument : String) : Except CommandError Command :=
  if name ∈ ["help", "h", "?"] then .ok .help
  else if name ∈ ["quit", "q", "exit"] then .ok .quit
  else if name = "new" then .ok .new
  else if name = "score" then .ok .score
  else if name = "parts" then .ok .parts
  else if name = "play" then .ok .play
  else if name = "save" then withPath name argument .save
  else if name = "load" then withPath name argument .load
  else .error (.unknown name)

/-- The command of a line, if it starts with a colon. -/
def parse? (line : String) : Option (Except CommandError Command) :=
  match Text.trimChars line.toList with
  | ':' :: rest =>
    let (name, argument) := Text.splitAtBlank rest
    some (ofName (String.ofList name) (String.ofList (Text.trimChars (argument.getD []))))
  | _ => none

def range? (events : List Event) : Option (UInt8 × UInt8) :=
  match events with
  | [] => none
  | e :: es =>
    some (es.foldl (fun (lo, hi) e => (min lo e.pitch, max hi e.pitch)) (e.pitch, e.pitch))

/-- A part's number, name and instrument, and how many notes it has in which range. -/
def describePart (score : Score) (id : PartId) (player : Player) : String :=
  let events := score.eventsOf id
  let range :=
    match range? events with
    | some (lo, hi) => ", " ++ Pitch.name lo ++ " to " ++ Pitch.name hi
    | none => ""
  id.text ++ " " ++ player.name ++ " (" ++ player.instrument ++ "): " ++ toString events.length ++
    " note(s)" ++ range

def describeParts (score : Score) : String :=
  if score.parts.isEmpty then "(no parts)"
  else
    String.intercalate "\n"
      (score.parts.toList.map fun (id, player) => describePart score id player)

def saveTo (path : String) (s : Session) (d : Disk) : Except CommandError Disk :=
  (d.write path s.saved.toUTF8).mapError (.file path)

def loadFrom (path : String) (s : Session) (d : Disk) :
    Except CommandError Session.Loaded × Session :=
  match d.readText path with
  | .error e => (.error (.file path e), s)
  | .ok text =>
    let (result, s) := s.load text
    (result.mapError fun (line, e) => .loading path line e, s)

def execute {World : Type} [HasDisk World] (c : Command) (s : Session) (sink : Sink World)
    (options : Playback.Options) (w : World) : Except CommandError Flow × Session × World :=
  match c with
  | .help => (.ok (.goOn helpText), s, w)
  | .quit => (.ok .leave, s, w)
  | .new => (.ok (.goOn "new score"), .fresh, w)
  | .score =>
    let output := if s.history.isEmpty then "(empty score)" else String.intercalate "\n" s.history
    (.ok (.goOn output), s, w)
  | .parts => (.ok (.goOn (describeParts s.snapshot)), s, w)
  | .play =>
    match s.replay sink options w with
    | (.error e, w) => (.error (.audio e), s, w)
    | (.ok played, w) =>
      let output := "playing " ++ toString played.events.length ++ " note(s), " ++
        played.duration.text
      (.ok (.goOn output), s, w)
  | .save path =>
    match saveTo path s (HasDisk.disk w) with
    | .error e => (.error e, s, w)
    | .ok disk =>
      let output := "saved " ++ toString s.history.length ++ " line(s) to " ++ path
      (.ok (.goOn output), s, HasDisk.withDisk w disk)
  | .load path =>
    match loadFrom path s (HasDisk.disk w) with
    | (.error e, s) => (.error e, s, w)
    | (.ok loaded, s) =>
      let output := "loaded " ++ toString loaded.lines ++ " line(s) from " ++ path ++ ", " ++
        toString loaded.notes ++ " new note(s)"
      (.ok (.goOn output), s, w)

end Command

end Songline
