import Songline.Number.Literal
import Songline.Settings

set_option autoImplicit false

namespace Songline

structure Arguments where
  /-- The file with a score that is loaded first. -/
  score : Option String
  config : Option String
  target : Option TargetWord
  wavDir : Option String
  noLoad : Bool
  volume : Option Float32
  seed : Option UInt64
  showEvents : Bool

/-- What the shell is started for. -/
inductive Request
  | run (arguments : Arguments)
  | help
  | version

inductive ArgumentError
  | unknown (argument : String)
  | repeated (option : String)
  | missingValue (option : String)
  | unneededValue (option : String)
  | invalidValue (option value : String)
deriving DecidableEq, Repr

def ArgumentError.message : ArgumentError → String
  | unknown argument => "unexpected argument '" ++ argument ++ "'"
  | repeated option => "'" ++ option ++ "' cannot be used multiple times"
  | missingValue option => "a value is required for '" ++ option ++ "'"
  | unneededValue option => "no value is expected for '" ++ option ++ "'"
  | invalidValue option value => "invalid value '" ++ value ++ "' for '" ++ option ++ "'"

namespace Arguments

def bare : Arguments := ⟨none, none, none, none, false, none, none, false⟩

/-- Options that are given with a value. -/
inductive Valued
  | score
  | config
  | target
  | wavDir
  | volume
  | seed
deriving DecidableEq, Repr

def Valued.text : Valued → String
  | score => "[SCORE]"
  | config => "--config <CONFIG>"
  | target => "--target <TARGET>"
  | wavDir => "--wav-dir <WAV_DIR>"
  | volume => "--volume <VOLUME>"
  | seed => "--seed <SEED>"

def Valued.ofName? : String → Option Valued
  | "config" => some config
  | "target" => some target
  | "wav-dir" => some wavDir
  | "volume" => some volume
  | "seed" => some seed
  | _ => none

/-- Options that are given without a value. -/
inductive Switch
  | noLoad
  | showEvents
  | help
  | version
deriving DecidableEq, Repr

def Switch.text : Switch → String
  | noLoad => "--no-load"
  | showEvents => "--show-events"
  | help => "--help"
  | version => "--version"

def Switch.ofName? : String → Option Switch
  | "no-load" => some noLoad
  | "show-events" => some showEvents
  | "help" => some help
  | "version" => some version
  | _ => none

def Switch.ofLetter? (letter : Char) : Option Switch :=
  if letter = 'h' then some help else if letter = 'V' then some version else none

def path? (value : String) : Option String := if value = "" then none else some value

/-- The arguments with the value of one, which must not have one yet. -/
def fill {α : Type} (option : Valued) (value : String) (held : Option α)
    (read? : String → Option α) (put : α → Arguments) : Except ArgumentError Arguments :=
  match read? value with
  | none => .error (.invalidValue option.text value)
  | some x => if held.isSome then .error (.repeated option.text) else .ok (put x)

def give (a : Arguments) (option : Valued) (value : String) : Except ArgumentError Arguments :=
  match option with
  | .score => fill option value a.score path? fun x => { a with score := some x }
  | .config => fill option value a.config path? fun x => { a with config := some x }
  | .target => fill option value a.target TargetWord.ofString? fun x => { a with target := some x }
  | .wavDir => fill option value a.wavDir path? fun x => { a with wavDir := some x }
  | .volume => fill option value a.volume Literal.float32? fun x => { a with volume := some x }
  | .seed => fill option value a.seed Literal.uint64? fun x => { a with seed := some x }

/-- Whether a text is the value of an option before it, and not an option itself. -/
def isValue (text : String) : Bool := text = "-" || text.toList.head? ≠ some '-'

/-- An argument by its form. -/
inductive Form
  /-- The mark after which there are no options. -/
  | stop
  | long (name : String) (value : Option String)
  | short (letter : Char)
  | positional (text : String)
deriving DecidableEq, Repr

def splitEquals (cs : List Char) : String × Option String :=
  let name := cs.takeWhile (· ≠ '=')
  (String.ofList name, (cs.drop name.length).tail?.map String.ofList)

def Form.ofString (text : String) : Form :=
  match text.toList with
  | ['-', '-'] => stop
  | '-' :: '-' :: rest => let (name, value) := splitEquals rest; long name value
  | '-' :: letter :: _ => short letter
  | _ => positional text

/-- Reads arguments of which none is an option. -/
def readPositional (a : Arguments) : List String → Except ArgumentError Request
  | [] => .ok (.run a)
  | text :: rest =>
    if a.score.isSome then .error (.unknown text)
    else
      match a.give .score text with
      | .error e => .error e
      | .ok a => a.readPositional rest

/-- Reads arguments. The first mistake counts, unless a request for help or the version precedes
it. -/
def read (a : Arguments) : List String → Except ArgumentError Request
  | [] => .ok (.run a)
  | text :: rest =>
    match Form.ofString text with
    | .stop => a.readPositional rest
    | .positional _ =>
      if a.score.isSome then .error (.unknown text)
      else
        match a.give .score text with
        | .error e => .error e
        | .ok a => a.read rest
    | .short letter =>
      match Switch.ofLetter? letter with
      | some .help => .ok .help
      | some .version => .ok .version
      | _ => .error (.unknown text)
    | .long name (some value) =>
      match Valued.ofName? name, Switch.ofName? name with
      | some option, _ =>
        match a.give option value with
        | .error e => .error e
        | .ok a => a.read rest
      | none, some switch => .error (.unneededValue switch.text)
      | none, none => .error (.unknown text)
    | .long name none =>
      match Valued.ofName? name, Switch.ofName? name with
      | some option, _ =>
        match rest with
        | [] => .error (.missingValue option.text)
        | value :: rest =>
          if !isValue value then .error (.missingValue option.text)
          else
            match a.give option value with
            | .error e => .error e
            | .ok a => a.read rest
      | none, some .help => .ok .help
      | none, some .version => .ok .version
      | none, some .noLoad =>
        if a.noLoad then .error (.repeated Switch.noLoad.text)
        else { a with noLoad := true }.read rest
      | none, some .showEvents =>
        if a.showEvents then .error (.repeated Switch.showEvents.text)
        else { a with showEvents := true }.read rest
      | none, none => .error (.unknown text)

def parse (arguments : List String) : Except ArgumentError Request := bare.read arguments

/-- Settings with what the arguments say about them. A directory for takes asks for them, unless a
target is given too. -/
def override (a : Arguments) (s : Settings) : Settings :=
  let s := match a.wavDir with
    | some dir => { s with wavDir := dir, target := .wav }
    | none => s
  { s with
    target := a.target.getD s.target
    loadInstruments := s.loadInstruments && !a.noLoad
    volume := a.volume.getD s.volume
    seed := a.seed.getD s.seed
    showEvents := s.showEvents || a.showEvents }

def versionText : String := "refrain 0.1.0\n"

def helpText : String :=
  String.intercalate "\n"
    ["An interactive score REPL that auditions each line as you type it",
      "",
      "Usage: refrain [OPTIONS] [SCORE]",
      "",
      "Arguments:",
      "  [SCORE]  Score file to evaluate before the first prompt",
      "",
      "Options:",
      "      --config <CONFIG>    Config file (default: ~/.refrain/config.yaml)",
      "      --target <TARGET>    Where playback goes [possible values: live, wav, silent]",
      "      --wav-dir <WAV_DIR>  Directory for WAV files (implies --target wav unless given)",
      "      --no-load            Don't load instruments for new parts",
      "      --volume <VOLUME>    Master volume, 0.0 to 1.0",
      "      --seed <SEED>        Seed for noise-based instruments",
      "      --show-events        Print the notes each line added",
      "  -h, --help               Print help",
      "  -V, --version            Print version",
      ""]

end Arguments

end Songline
