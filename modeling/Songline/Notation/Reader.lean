import Songline.Notation.Form
import Songline.Notation.TokenLine

set_option autoImplicit false

/- Reading tokens as forms, one token at a time. Each token either moves the reader on or is
refused, so what is refused is always the first token that no reading can contain. -/
namespace Songline

/-- What a line is read as. -/
inductive Entry
  /-- Events, without a part declaration. -/
  | musicData
  /-- One part declaration and its events. -/
  | part
  /-- Settings, then one or more parts with their events. -/
  | score
deriving DecidableEq, Repr

namespace Entry

def name : Entry → String
  | musicData => "music data"
  | part => "part"
  | score => "score"

/-- The entries in the order in which a line is tried as them, the most local first. -/
def byPriority : List Entry := [musicData, part, score]

end Entry

/-- What the reader has seen of the event or declaration that it is in. Lists are latest first. -/
inductive Reader.Phase
  /-- Between two events. -/
  | events
  /-- After a note or rest, which `/` and `*2` may continue. -/
  | members (seen : List ChordMember)
  /-- After the slash of a chord. -/
  | slashed (seen : List ChordMember)
  /-- After a closing bracket, which `*2` may continue. -/
  | bracketed (form : Form)
  | settingName
  | settingValue (name : String)
  | settingEnd (name : String) (value : Float)
  /-- Before a part name. -/
  | partName (names : List String)
  /-- After a part name. -/
  | partNames (names : List String)
  | partAlias (names : List String) (nick : String)
  /-- Before the first declaration of a score. -/
  | preamble

/-- The state of reading: the finished forms of the innermost open sequence, and those of the
sequences around it, all latest first. -/
structure Reader where
  entry : Entry
  /-- No longer in the settings that open a score. -/
  declared : Bool
  phase : Reader.Phase
  forms : List Form
  outer : List (List Form)

namespace Reader

def start (entry : Entry) : Reader where
  entry := entry
  declared := entry ≠ .score
  phase :=
    match entry with
    | .musicData => .events
    | .part => .partName []
    | .score => .preamble
  forms := []
  outer := []

/-- Part names start with two letters. -/
def isPartName (name : String) : Bool :=
  match name.toList with
  | a :: b :: _ => a.isAlpha && b.isAlpha
  | _ => false

/-- A name with `!` at its end is set everywhere. -/
def settingOf (name : String) (value : Float) : Setting :=
  if name.toList.getLast? = some '!' then ⟨String.ofList name.toList.dropLast, value, true⟩
  else ⟨name, value, false⟩

def push (r : Reader) (form : Form) : Reader :=
  { r with phase := .events, forms := form :: r.forms }

/-- Adds a setting; those before the first declaration of a score leave the reader there. -/
def pushSetting (r : Reader) (s : Setting) : Reader :=
  { r with
    phase := if r.declared then .events else .preamble
    forms := .setting s :: r.forms }

/-- Finishes the event that the last token could have ended. -/
def settle (r : Reader) : Reader :=
  match r.phase with
  | .members seen => r.push (.ofMembers seen.reverse)
  | .bracketed form => r.push form
  | _ => r

def name (r : Reader) (names : List String) (s : String) : Except GrammarFault Reader :=
  if isPartName s then .ok { r with phase := .partNames (s :: names) }
  else .error (.invalidPartName s)

/-- A closing bracket outside of every sequence. -/
def strayBracket (r : Reader) : GrammarFault :=
  match r.entry with
  | .musicData => if r.forms.isEmpty then .noMusic else .unexpected (some .closeBracket)
  | .part => .unexpected (some .closeBracket)
  | .score => .noPartName (some .closeBracket)

/-- Reads a token between two events. -/
def event (r : Reader) (t : Token) : Except GrammarFault Reader :=
  match t with
  | .note n => .ok { r with phase := .members [.note n] }
  | .rest l => .ok { r with phase := .members [.rest l] }
  | .octave n => .ok (r.push (.octave (.set n)))
  | .octaveUp => .ok (r.push (.octave .up))
  | .octaveDown => .ok (r.push (.octave .down))
  | .voice n => .ok (r.push (.voice n))
  | .barline => .ok r
  | .openParen => .ok { r with phase := .settingName }
  | .openBracket => .ok { r with forms := [], outer := r.forms :: r.outer }
  | .closeBracket =>
    match r.outer with
    | [] => .error r.strayBracket
    | forms :: outer =>
      .ok { r with phase := .bracketed (.sequence r.forms.reverse), forms := forms, outer := outer }
  | .times _ => .error .repeatWithoutEvent
  | .name s =>
    if r.entry = .score ∧ r.outer = [] then r.name [] s else .error (.unexpected (some t))
  | .quoted _ | .number _ | .closeParen | .slash | .colon => .error (.unexpected (some t))

def feed (r : Reader) (t : Token) : Except GrammarFault Reader :=
  match r.phase with
  | .events => r.event t
  | .members seen =>
    match t with
    | .slash => .ok { r with phase := .slashed seen }
    | .times n => .ok (r.push (.repeated (.ofMembers seen.reverse) n))
    | _ => r.settle.event t
  | .slashed seen =>
    match t with
    | .note n => .ok { r with phase := .members (.note n :: seen) }
    | .rest l => .ok { r with phase := .members (.rest l :: seen) }
    | _ => .error (.noNoteOrRest (some t))
  | .bracketed form =>
    match t with
    | .times n => .ok (r.push (.repeated form n))
    | _ => r.settle.event t
  | .settingName =>
    match t with
    | .name s => .ok { r with phase := .settingValue s }
    | _ => .error (.noAttributeName (some t))
  | .settingValue s =>
    match t with
    | .number value => .ok { r with phase := .settingEnd s value }
    | _ => .error (.noNumber (some t))
  | .settingEnd s value =>
    match t with
    | .closeParen => .ok (r.pushSetting (settingOf s value))
    | _ => .error (.missing .closeParen (some t))
  | .partName names =>
    match t with
    | .name s => r.name names s
    | _ => .error (.noPartName (some t))
  | .partNames names =>
    match t with
    | .slash => .ok { r with phase := .partName names }
    | .quoted s => .ok { r with phase := .partAlias names s }
    | .colon => .ok { r.push (.part ⟨names.reverse, none⟩) with declared := true }
    | _ => .error (.missing .colon (some t))
  | .partAlias names nick =>
    match t with
    | .colon => .ok { r.push (.part ⟨names.reverse, some nick⟩) with declared := true }
    | _ => .error (.missing .colon (some t))
  | .preamble =>
    match t with
    | .openParen => .ok { r with phase := .settingName }
    | .name s => r.name [] s
    | _ => .error (.noPartDeclaration (some t))

def finish (r : Reader) : Except GrammarFault (List Form) :=
  match r.phase with
  | .events | .members _ | .bracketed _ =>
    let r := r.settle
    if r.outer ≠ [] then .error (.missing .closeBracket none)
    else if r.entry = .musicData ∧ r.forms.isEmpty then .error .noMusic
    else .ok r.forms.reverse
  | .slashed _ => .error (.noNoteOrRest none)
  | .settingName => .error (.noAttributeName none)
  | .settingValue _ => .error (.noNumber none)
  | .settingEnd _ _ => .error (.missing .closeParen none)
  | .partName _ => .error (.noPartName none)
  | .partNames _ | .partAlias _ _ => .error (.missing .colon none)
  | .preamble => .error (.noPartDeclaration none)

/-- Reads the tokens that are left. A refusal is found at the token that is refused. -/
def run (r : Reader) (finish : Position) :
    List Token.Placed → Except (GrammarFault × Position) (List Form)
  | [] => r.finish.mapError (·, finish)
  | t :: ts =>
    match r.feed t.token with
    | .error fault => .error (fault, t.position)
    | .ok next => next.run finish ts

end Reader

namespace TokenLine

/-- The place of the first token, or the end of a line without tokens. -/
def first (line : TokenLine) : Position :=
  match line.tokens with
  | [] => line.finish
  | t :: _ => t.position

/-- Where a fault is reported: missing music is missed from the first token on. -/
def place (line : TokenLine) (fault : GrammarFault) (found : Position) : Position :=
  if fault = .noMusic then line.first else found

def read (line : TokenLine) (entry : Entry) : Except SyntaxError (List Form) :=
  ((Reader.start entry).run line.finish line.tokens).mapError
    fun (fault, found) => ⟨.grammar fault, line.place fault found⟩

end TokenLine

def Entry.read (entry : Entry) (text : String) : Except SyntaxError (List Form) := do
  let line ← TokenLine.ofString text
  line.read entry

end Songline
