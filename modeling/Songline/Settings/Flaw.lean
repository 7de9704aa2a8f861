import Songline.Settings.Word
import Songline.Text.Unprintable
import Songline.Yaml.Node

set_option autoImplicit false

namespace Songline.Settings

def ticked (s : String) : String := "\x60" ++ s ++ "\x60"

/-- What a value is taken for by itself. -/
inductive Found
  | nothing
  | truth (b : Bool)
  | integer (n : Int)
  | fraction (x : Float)
  | text (s : String)
  | sequence
  | mapping

namespace Found

/-- What a word without quotes and tags is taken for. -/
def ofWord (word : String) : Found :=
  if word.isEmpty || isNullWord word then nothing
  else
    match boolOfWord? word, integerOfWord? word with
    | some b, _ => truth b
    | none, some n => integer n
    | none, none =>
      if hasLeadingZero word then text word
      else (floatOfWord? word).elim (text word) fraction

/-- The format of a whole number that 64 bits do not hold. -/
def wideSuffix (n : Int) : String :=
  if n ≥ Int.pow 2 64 then " as u128" else if n < -Int.pow 2 63 then " as i128" else ""

def pointed (x : Float) : String :=
  let digits := Number.text x
  if !x.isFinite || digits.toList.contains '.' then digits else digits ++ ".0"

def message : Found → String
  | nothing => "unit value"
  | truth b => "boolean " ++ ticked (if b then "true" else "false")
  | integer n => "integer " ++ ticked (toString n) ++ wideSuffix n
  | fraction x => "floating point " ++ ticked (pointed x)
  | text s => "string " ++ Text.quoted s
  | sequence => "sequence"
  | mapping => "map"

end Found

/-- What is wanted in some place. -/
inductive Wanted
  | settings
  | name
  | ownTag
  | nothing
  | path
  | truth
  | volume
  | seed
  /-- What a tag of the format asks for. -/
  | integerWord
  | floatWord
  | nullWord
deriving DecidableEq, Repr

def Wanted.message : Wanted → String
  | settings => "struct ReplConfig"
  | name => "field identifier"
  | ownTag => "a YAML tag starting with '!'"
  | nothing => "unit"
  | path => "path string"
  | truth => "a boolean"
  | volume => "f32"
  | seed => "u64"
  | integerWord => "an integer"
  | floatWord => "a float"
  | nullWord => "null"

inductive Mistake
  | wrongType (found : Found) (wanted : Wanted)
  /-- A word that is not what its tag says. -/
  | wrongWord (word : String) (wanted : Wanted)
  | unknownTarget (word : String) (known : List String)
  | repeated (name : String)

namespace Mistake

/-- The tag of a kind of values that the format knows. -/
def standardTag (kind : String) : Yaml.Tag := .ofString ("tag:yaml.org,2002:" ++ kind)

/-- What a scalar with a tag is instead of what is wanted. -/
def ofTagged (wanted : Wanted) (tag : Yaml.Tag) (word : String) : Mistake :=
  let taken (found : Option Found) (asked : Wanted) : Mistake :=
    found.elim (wrongWord word asked) (wrongType · wanted)
  if tag = standardTag "bool" then taken ((boolOfWord? word).map .truth) .truth
  else if tag = standardTag "int" then taken ((integerOfWord? word).map .integer) .integerWord
  else if tag = standardTag "float" then taken ((floatOfWord? word).map .fraction) .floatWord
  else if tag = standardTag "null" then
    taken (if isNullWord word then some .nothing else none) .nullWord
  else wrongType (.text word) wanted

def ofScalar (wanted : Wanted) (tag : Option Yaml.Tag) (text : String) (style : Yaml.Style) :
    Mistake :=
  match tag with
  | some tag => ofTagged wanted tag text
  | none => wrongType (if style = .plain then .ofWord text else .text text) wanted

def message : Mistake → String
  | wrongType found wanted => "invalid type: " ++ found.message ++ ", expected " ++ wanted.message
  | wrongWord word wanted =>
    "invalid value: string " ++ Text.quoted word ++ ", expected " ++ wanted.message
  | unknownTarget word known =>
    "unknown variant " ++ ticked word ++ ", expected one of " ++
      String.intercalate ", " (known.map ticked)
  | repeated name => "duplicate field " ++ ticked name

end Mistake

/-- Why a text does not hold settings. -/
inductive Flaw
  | unreadable (fault : Yaml.Fault)
  | secondDocument
  /-- A mistake, in the setting of that name if it is in one. -/
  | mistake (m : Mistake) (name : Option String) (place : Position)

namespace Flaw

def ofNode (wanted : Wanted) (name : Option String) : Yaml.Node → Flaw
  | .broken f => .unreadable f
  | .scalar place tag text style => .mistake (.ofScalar wanted tag text style) name place
  | .sequence place _ _ => .mistake (.wrongType .sequence wanted) name place
  | .mapping place _ _ => .mistake (.wrongType .mapping wanted) name place
  | .anchored _ n => ofNode wanted name n
  | .reference place _ => .unreadable ⟨.unknownAnchor, place, 0, none⟩

def message : Flaw → String
  | unreadable f => f.text
  | secondDocument =>
    "deserializing from YAML containing more than one document is not supported"
  | mistake m name place => name.elim "" (· ++ ": ") ++ m.message ++ Yaml.placeText place

end Flaw

end Songline.Settings
