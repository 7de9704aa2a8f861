import Songline.Files.Disk
import Songline.Number.Binary
import Songline.Playback
import Songline.Settings.Flaw
import Songline.Text.Lines

set_option autoImplicit false

namespace Songline

/-- Where playback goes, by its word. -/
inductive TargetWord
  | live
  | wav
  | silent
deriving DecidableEq, Repr

namespace TargetWord

def text : TargetWord → String
  | live => "live"
  | wav => "wav"
  | silent => "silent"

def all : List TargetWord := [live, wav, silent]

def ofString? (word : String) : Option TargetWord := all.find? (·.text = word)

end TargetWord

/-- Settings of the shell. What a file of them does not say keeps its default. -/
structure Settings where
  target : TargetWord
  /-- Where takes are written to. -/
  wavDir : String
  loadInstruments : Bool
  /-- The gain of the whole, from 0 to 1. -/
  volume : Float32
  /-- The seed of all noise. -/
  seed : UInt64
  /-- Print the events that each line adds. -/
  showEvents : Bool

inductive SettingsError
  | reading (path : String) (e : FileError)
  | invalid (path : String) (flaw : Settings.Flaw)

namespace SettingsError

def message : SettingsError → String
  | reading path e => "cannot read " ++ path ++ ": " ++ e.message
  | invalid path flaw => "invalid config " ++ path ++ ": " ++ flaw.message

def causes : SettingsError → List String
  | reading _ e => [e.message]
  | invalid _ flaw => [flaw.message]

end SettingsError

namespace Settings

def directory (home : String) : String := Path.join home ".refrain"

def standardPath (home : String) : String := Path.join (directory home) "config.yaml"

def standard (home : String) : Settings :=
  ⟨.live, Path.join (directory home) "takes", true, 0.8, 42, false⟩

/-- Whether two settings say the same. Directories are compared by the names in their paths. -/
def same (a b : Settings) : Bool :=
  a.target = b.target && Path.parts a.wavDir = Path.parts b.wavDir &&
    a.loadInstruments = b.loadInstruments && a.volume == b.volume && a.seed = b.seed &&
    a.showEvents = b.showEvents

def playOptions (s : Settings) : Playback.Options :=
  let target : Playback.Target :=
    match s.target with
    | .live => .live
    | .wav => .wav s.wavDir
    | .silent => .silent
  ⟨target, s.loadInstruments, Number.clampUnit s.volume⟩

def text? : Yaml.Node → Option String
  | .scalar _ _ text _ => some text
  | _ => none

/-- The text of a scalar that may stand for something else than text: a plain one, or a literal
block with the tag of what it stands for. -/
def word? (kind : String) : Yaml.Node → Option String
  | .scalar _ tag text style =>
    if style = .plain || (style = .literal && tag = some (Mistake.standardTag kind)) then some text
    else none
  | _ => none

def bool? (n : Yaml.Node) : Option Bool := (word? "bool" n).bind boolOfWord?

def count? (n : Yaml.Node) : Option UInt64 := (word? "int" n).bind countOfWord?

def float? (n : Yaml.Node) : Option Float := (word? "float" n).bind floatOfWord?

def isNull : Yaml.Node → Bool
  | .scalar _ _ text style => style = .plain && (text.isEmpty || isNullWord text)
  | _ => false

def tag? : Yaml.Node → Option Yaml.Tag
  | .scalar _ tag _ _ | .sequence _ tag _ | .mapping _ tag _ => tag
  | _ => none

/-- The name in a tag of one's own: what follows its exclamation mark, if that is a text. -/
def ownName? : Yaml.Tag → Option String
  | [] => none
  | mark :: name => if mark = 0x21 then String.fromUTF8? ⟨name.toArray⟩ else none

/-- An entry of a file: the name of the setting, how a message calls it, its value, and what the
value refers to. -/
structure Entry where
  name : String
  shownName : String
  given : Yaml.Node
  value : Yaml.Node

namespace Entry

/-- The value of an entry, by a function that knows what is wanted. -/
def read {α : Type} (e : Entry) (wanted : Wanted) (value? : Yaml.Node → Option α) : Except Flaw α :=
  match value? e.value with
  | some x => .ok x
  | none => .error (.ofNode wanted (some e.shownName) e.value)

def unknownTarget (word : String) : Mistake := .unknownTarget word (TargetWord.all.map (·.text))

/-- The target that the tag of nothing names. A message about an unknown one does not name the
setting, and tells where the settings start, unless the value is a reference. -/
def ownTarget (e : Entry) (start : Position) (word : String) : Except Flaw TargetWord :=
  match TargetWord.ofString? word, e.given with
  | some t, _ => if isNull e.value then .ok t else e.read .nothing fun _ => none
  | none, .reference place _ => .error (.mistake (unknownTarget word) (some e.shownName) place)
  | none, _ => .error (.mistake (unknownTarget word) none start)

/-- A target: its word, or its word as the tag of nothing. -/
def target (e : Entry) (start : Position) : Except Flaw TargetWord :=
  match (tag? e.value).bind ownName?, e.value with
  | some word, _ => e.ownTarget start word
  | none, .scalar place _ word _ =>
    match TargetWord.ofString? word with
    | some t => .ok t
    | none => .error (.mistake (unknownTarget word) (some e.shownName) place)
  | none, _ => e.read .ownTag fun _ => none

/-- The entry that a key and a value make. References stand for the given marked nodes; a name that
is one is not shown. -/
def ofPair (marked : List (Nat × Yaml.Node)) (key value : Yaml.Node) : Except Flaw Entry := do
  let name ← match key.follow marked with
    | .scalar _ _ text _ => .ok text
    | n => .error (.ofNode .name none n)
  let shownName := match key with
    | .reference _ _ => "?"
    | _ => name
  .ok ⟨name, shownName, value, value.follow marked⟩

end Entry

def names : List String :=
  ["target", "wav_dir", "load_instruments", "volume", "seed", "show_events"]

/-- Settings after one of them is given, in a file of settings that start at a place. What is
unknown is passed over if it can be read. -/
def set (s : Settings) (start : Position) (e : Entry) : Except Flaw Settings := do
  match e.name with
  | "target" => .ok { s with target := ← e.target start }
  | "wav_dir" => .ok { s with wavDir := ← e.read .path text? }
  | "load_instruments" => .ok { s with loadInstruments := ← e.read .truth bool? }
  | "volume" => .ok { s with volume := (← e.read .volume float?).toFloat32 }
  | "seed" => .ok { s with seed := ← e.read .seed count? }
  | "show_events" => .ok { s with showEvents := ← e.read .truth bool? }
  | _ =>
    match e.given.fault? with
    | some f => .error (.unreadable f)
    | none => .ok s

/-- Settings after those of a mapping that starts at a place, in which no setting comes twice. -/
def setAll (marked : List (Nat × Yaml.Node)) (start : Position) (s : Settings)
    (given : List String) : List (Yaml.Node × Yaml.Node) → Except Flaw Settings
  | [] => .ok s
  | (key, value) :: rest => do
    let e ← Entry.ofPair marked key value
    if given.contains e.name then .error (.mistake (.repeated e.name) none start)
    let s ← s.set start e
    setAll marked start s (if names.contains e.name then e.name :: given else given) rest

/-- The settings of a document. One that says nothing gives none. -/
def ofRoot (s : Settings) (root : Yaml.Node) : Except Flaw Settings :=
  match root.follow root.marked with
  | .mapping start _ entries => setAll root.marked start s [] entries
  | .scalar _ _ "" .plain => .ok s
  | n => .error (.ofNode .settings none n)

/-- The settings of a text that holds one document at most. -/
def ofContent (s : Settings) : Yaml.Content → Except Flaw Settings
  | .nothing => .ok s
  | .document root sequel => do
    let s ← s.ofRoot root
    match sequel with
    | .nothing => .ok s
    | .more => .error .secondDocument
    | .fault f => .error (.unreadable f)

def ofText (s : Settings) (text : String) : Except Flaw Settings :=
  if (Text.trim text).isEmpty then .ok s else s.ofContent (Yaml.content text)

/-- The settings of a file, over given ones. A file that does not exist gives none. -/
def load (s : Settings) (d : Disk) (path : String) : Except SettingsError Settings :=
  if !d.contains path then .ok s
  else
    match d.readText path with
    | .error e => .error (.reading path e)
    | .ok text =>
      match s.ofText text with
      | .ok s => .ok s
      | .error flaw => .error (.invalid path flaw)

/-- The settings of a file, or the given ones if there is something wrong with it. -/
def loadOrKeep (s : Settings) (d : Disk) (path : String) : Settings :=
  (s.load d path).toOption.getD s

end Settings

end Songline
