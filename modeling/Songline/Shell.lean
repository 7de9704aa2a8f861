import Songline.Output.Studio
import Songline.Shell.Arguments

set_option autoImplicit false

namespace Songline

/-- What is printed, to the output and to the channel for errors. -/
structure Printed where
  out : String
  err : String
deriving DecidableEq, Repr

namespace Printed

def nothing : Printed := ⟨"", ""⟩

def line (text : String) : Printed := ⟨text ++ "\n", ""⟩

def errorLine (text : String) : Printed := ⟨"", text ++ "\n"⟩

instance : Append Printed := ⟨fun a b => ⟨a.out ++ b.out, a.err ++ b.err⟩⟩

end Printed

/-- Why the shell ends with an error: a message, and the messages behind it. -/
structure Failure where
  message : String
  causes : List String
deriving DecidableEq, Repr

namespace Failure

/-- A message at an indentation; its further lines have one of their own. -/
def indented (first further : String) (message : String) : String :=
  let lines := (Text.splitNewlines message.toList).map String.ofList
  first ++ String.intercalate ("\n" ++ further) lines

def numbered (number : Nat) : List String → List String
  | [] => []
  | cause :: rest =>
    indented (Text.padLeft 5 (toString number) ++ ": ") "       " cause ::
      numbered (number + 1) rest

def causeLines : List String → List String
  | [cause] => [indented "    " "    " cause]
  | causes => numbered 0 causes

def text (f : Failure) : String :=
  let causes :=
    if f.causes.isEmpty then ""
    else "\n\nCaused by:\n" ++ String.intercalate "\n" (causeLines f.causes)
  "Error: " ++ f.message ++ causes

end Failure

structure Shell where
  session : Session
  studio : Studio
  settings : Settings

namespace Shell

def options (s : Shell) : Playback.Options := s.settings.playOptions

/-- What the shell runs in: the home directory, the output device and the disk. -/
structure Surroundings where
  home : String
  device : Option Device
  disk : Disk

/-- The settings that hold after those of the file and the arguments. -/
def settingsOf (w : Surroundings) (a : Arguments) : Except Failure Settings :=
  let standard := Settings.standard w.home
  match a.config with
  | some path =>
    match standard.load w.disk path with
    | .ok s => .ok (a.override s)
    | .error e => .error ⟨"loading config " ++ path, e.message :: e.causes⟩
  | none => .ok (a.override (standard.loadOrKeep w.disk (Settings.standardPath w.home)))

def loadScore (s : Shell) (path : String) : Except Failure (Printed × Shell) :=
  match Command.loadFrom path s.session s.studio.disk with
  | (.error e, _) => .error ⟨"loading score " ++ path, e.message :: e.causes⟩
  | (.ok loaded, session) =>
    let text := "loaded " ++ toString loaded.lines ++ " line(s), " ++ toString loaded.notes ++
      " note(s) from " ++ path
    .ok (.line text, { s with session := session })

def banner : String := "refrain v0.1.0 — :help for commands"

/-- The shell before its first line, and what it prints then. -/
def start (w : Surroundings) (a : Arguments) : Except Failure (Printed × Shell) := do
  let settings ← settingsOf w a
  let s : Shell := ⟨.fresh, .ofSeed settings.seed w.device w.disk, settings⟩
  let (printed, s) ← match a.score with
    | some path => s.loadScore path
    | none => .ok (.nothing, s)
  .ok (printed ++ .line banner, s)

def prompt (s : Shell) : String := String.intercalate "/" s.session.partNames ++ "> "

/-- An event that was added: where it stands, where it was played, its part, name and length. -/
def describeEvent (score : Score) (added played : Event) : String :=
  let name := (score.parts[added.part]?.map (·.name)).getD "?"
  "  " ++ Text.padLeft 9 added.offset.text ++ " (plays at " ++ Text.padLeft 9 played.offset.text ++
    ")  " ++ Text.padRight 12 name ++ " " ++ Text.padRight 4 (Pitch.name added.pitch) ++ " " ++
    Text.padLeft 9 added.duration.text ++ "  vol " ++ toString added.volume.toNat

/-- The events that a turn added, below what its line was read as. -/
def describeTurn (score : Score) (t : Turn) : Printed :=
  let events := t.added.zipWith (describeEvent score) t.playback.events
  .line (String.intercalate "\n" (("[" ++ t.entry.name ++ "]") :: events))

def report (s : Shell) (t : Turn) : Printed :=
  let events := if s.settings.showEvents then describeTurn s.session.snapshot t else .nothing
  let take :=
    match s.settings.target, s.studio.lastTake with
    | .wav, some path => .line ("-> " ++ path)
    | _, _ => .nothing
  events ++ take

/-- Whether the shell reads on. -/
inductive Next
  | goOn
  | leave
deriving DecidableEq, Repr

def obey (s : Shell) (c : Command) : Printed × Next × Shell :=
  let (result, session, studio) := c.execute s.session Studio.sink s.options s.studio
  let s := { s with session := session, studio := studio }
  match result with
  | .ok (.goOn output) => (.line output, .goOn, s)
  | .ok .leave => (.nothing, .leave, s)
  | .error e => (.errorLine e.message, .goOn, s)

def play (s : Shell) (line : String) : Printed × Next × Shell :=
  let (result, session, studio) := s.session.turn Studio.sink s.options line s.studio
  let s := { s with session := session, studio := studio }
  match result with
  | .ok none => (.nothing, .goOn, s)
  | .ok (some t) => (s.report t, .goOn, s)
  | .error e => (.errorLine e.message, .goOn, s)

def answer (s : Shell) (line : String) : Printed × Next × Shell :=
  match Command.parse? line with
  | some (.ok c) => s.obey c
  | some (.error e) => (.errorLine e.message, .goOn, s)
  | none => s.play line

/-- How the shell ended: the exit code, what was printed and the disk after it. -/
structure Ending where
  code : UInt8
  printed : Printed
  disk : Disk

def Ending.ofFailure (f : Failure) (disk : Disk) : Ending := ⟨1, .errorLine f.text, disk⟩

def Ending.after (s : Shell) (printed : Printed) (e : Ending) : Ending :=
  { e with printed := ⟨s.prompt, ""⟩ ++ printed ++ e.printed }

/-- Answers lines until one asks to leave, none is left, or one is not text. -/
def converse (s : Shell) : List ByteArray → Ending
  | [] => .after s (.line "") ⟨0, .nothing, s.studio.disk⟩
  | line :: rest =>
    match String.fromUTF8? line with
    | none => .after s .nothing (.ofFailure ⟨FileError.notText.message, []⟩ s.studio.disk)
    | some line =>
      match s.answer line with
      | (printed, .goOn, next) => .after s printed (next.converse rest)
      | (printed, .leave, next) => .after s printed ⟨0, .nothing, next.studio.disk⟩

/-- The lines of an input, each with the newline that ends it. -/
def inputLines (bytes : List UInt8) : List (List UInt8) :=
  match bytes with
  | [] => []
  | b :: rest =>
    if b = 10 then [b] :: inputLines rest
    else
      match inputLines rest with
      | [] => [[b]]
      | line :: lines => (b :: line) :: lines

def run (w : Surroundings) (arguments : List String) (input : ByteArray) : Ending :=
  match Arguments.parse arguments with
  | .error e => ⟨2, .errorLine ("error: " ++ e.message), w.disk⟩
  | .ok .help => ⟨0, ⟨Arguments.helpText, ""⟩, w.disk⟩
  | .ok .version => ⟨0, ⟨Arguments.versionText, ""⟩, w.disk⟩
  | .ok (.run a) =>
    match start w a with
    | .error f => .ofFailure f w.disk
    | .ok (printed, s) =>
      let lines := (inputLines input.toList).map fun line => ⟨line.toArray⟩
      let ending := s.converse lines
      { ending with printed := printed ++ ending.printed }

end Shell

end Songline
