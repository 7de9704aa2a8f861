import Songline.Notation.Reader
import Songline.Score.Score

set_option autoImplicit false

namespace Songline

/-- A score that lines of notation go on writing. A line is applied as a whole or not at all. -/
structure Draft where
  /-- The parts, each at the place of its number. -/
  parts : List Part
  /-- The parts of stock instruments without an alias. -/
  stock : List (String × PartId)
  /-- Aliases of parts and names of groups. -/
  nicknames : List (String × List PartId)
  /-- The selected parts. -/
  current : List PartId
  /-- The style of new parts. -/
  defaults : Style
  events : EventSet

/-- The most notes, rests and other forms that a line may expand to. -/
def maxExpanded : Nat := 100000

mutual

/-- How many forms a form stands for once its repeats are written out. -/
def Form.expandedLength : Form → UInt64
  | .sequence forms => Form.expandedLengths forms
  | .repeated form times => Saturating.mul times.toUInt64 form.expandedLength
  | _ => 1

def Form.expandedLengths : List Form → UInt64
  | [] => 0
  | form :: forms => Saturating.add form.expandedLength (Form.expandedLengths forms)

end

namespace Draft

def empty : Draft := ⟨[], [], [], [], .default, ∅⟩

def snapshot (d : Draft) : Score :=
  ⟨d.events, Std.ExtTreeMap.ofList (d.parts.map fun p => (p.id, p.player))⟩

def currentNames (d : Draft) : List String :=
  d.current.filterMap fun id => d.parts[id.index]?.map (·.player.name)

def actIn (d : Draft) (a : Part.Action) (id : PartId) : Except ScoreError Draft :=
  match d.parts[id.index]? with
  | none => .ok d
  | some p =>
    match p.act a with
    | (.error e, _) => .error e
    | (.ok events, p) =>
      .ok { d with parts := d.parts.set id.index p, events := d.events.insertMany events }

def act (d : Draft) (a : Part.Action) : Except ScoreError Draft :=
  if d.current.isEmpty then .error .noActivePart else d.current.foldlM (·.actIn a) d

/-- Sets an attribute of every part, and of those still to come. -/
def setEverywhere (d : Draft) (s : Setting) : Except ScoreError Draft :=
  match Style.change s.name s.value with
  | .error e => .error e
  | .ok change =>
    .ok { d with defaults := change d.defaults, parts := d.parts.map (·.restyle change) }

def create (d : Draft) (instrument : Instrument) (name : String) : PartId × Draft :=
  let id : PartId := ⟨d.parts.length⟩
  let player : Player := ⟨name, instrument.name, instrument.patch⟩
  (id, { d with parts := d.parts ++ [Part.new id player d.defaults] })

/-- The parts that a name stands for: those of a nickname, or the one of a stock instrument, which
is created when it is first named. -/
def resolve (d : Draft) (name : String) : Except ScoreError (List PartId × Draft) :=
  match d.nicknames.lookup name with
  | some ids => .ok (ids, d)
  | none =>
    match Catalogue.find? name with
    | none => .error (.unknownInstrument name)
    | some instrument =>
      match d.stock.lookup instrument.name with
      | some id => .ok ([id], d)
      | none =>
        let (id, d) := d.create instrument instrument.name
        .ok ([id], { d with stock := (instrument.name, id) :: d.stock })

def resolveAll (d : Draft) : List String → Except ScoreError (List PartId × Draft)
  | [] => .ok ([], d)
  | name :: names =>
    match d.resolve name with
    | .error e => .error e
    | .ok (ids, d) =>
      match d.resolveAll names with
      | .error e => .error e
      | .ok (more, d) => .ok (ids ++ more, d)

/-- The part that an instrument plays under an alias. An alias in use stands for its part, if that
is the only one and has the same instrument. -/
def resolveAlias (d : Draft) (name nick : String) : Except ScoreError (PartId × Draft) :=
  match Catalogue.find? name with
  | none => .error (.unknownInstrument name)
  | some instrument =>
    match d.nicknames.lookup nick with
    | some [id] =>
      if (d.parts[id.index]?.map (·.player.instrument)) = some instrument.name then .ok (id, d)
      else .error (.aliasInUse nick)
    | some _ => .error (.aliasInUse nick)
    | none =>
      let (id, d) := d.create instrument nick
      .ok (id, { d with nicknames := (nick, [id]) :: d.nicknames })

/-- Gives a group of parts a name, which no other group may have. -/
def nickname (d : Draft) (nick : String) (ids : List PartId) : Except ScoreError Draft :=
  match d.nicknames.lookup nick with
  | some known => if known = ids then .ok d else .error (.aliasInUse nick)
  | none => .ok { d with nicknames := (nick, ids) :: d.nicknames }

/-- Each part number once, where it comes first. -/
def distinct (ids : List PartId) : List PartId :=
  ids.foldl (fun seen id => if seen.contains id then seen else seen ++ [id]) []

/-- Selects parts. Voices of the parts selected before are closed. -/
def select (d : Draft) (ids : List PartId) : Draft :=
  { d with
    parts := d.parts.map fun p => if d.current.contains p.id then p.closeVoices else p
    current := distinct ids }

def declare (d : Draft) (decl : PartDecl) : Except ScoreError Draft :=
  match decl.names, decl.nick with
  | [name], some nick =>
    match d.resolveAlias name nick with
    | .error e => .error e
    | .ok (id, d) => .ok (d.select [id])
  | names, nick =>
    match d.resolveAll names with
    | .error e => .error e
    | .ok (ids, d) =>
      match nick with
      | none => .ok (d.select ids)
      | some nick =>
        match d.nickname nick ids with
        | .error e => .error e
        | .ok d => .ok (d.select ids)

/-- Does something a number of times, until it fails. -/
def iterate (step : Draft → Except ScoreError Draft) : Nat → Draft → Except ScoreError Draft
  | 0, d => .ok d
  | n + 1, d =>
    match step d with
    | .error e => .error e
    | .ok d => iterate step n d

mutual

/-- Applies a form. A setting reaches every part when it says so, and while none is selected. A
repeat of what expands to nothing is left out, which makes no difference (`apply_repeated`). -/
def apply : Form → Draft → Except ScoreError Draft
  | .part decl, d => d.declare decl
  | .sequence forms, d => applyAll forms d
  | .repeated form times, d =>
    if form.expandedLength = 0 then .ok d else iterate (apply form) times.toNat d
  | .setting s, d =>
    if s.everywhere ∨ d.current.isEmpty then d.setEverywhere s
    else d.act (.move (.set s.name s.value))
  | .note n, d => d.act (.move (.note n))
  | .rest l, d => d.act (.move (.rest l))
  | .chord ms, d => d.act (.move (.chord ms))
  | .octave change, d => d.act (.move (.octave change))
  | .voice n, d => d.act (.voice n)

def applyAll : List Form → Draft → Except ScoreError Draft
  | [], d => .ok d
  | form :: forms, d =>
    match apply form d with
    | .error e => .error e
    | .ok d => applyAll forms d

end

/-- Applies the forms of a line read as an entry. Music data needs a selected part; a score starts
with none. -/
def applyLine (d : Draft) (entry : Entry) (forms : List Form) : Except ScoreError Draft :=
  match entry with
  | .musicData => if d.current.isEmpty then .error .noActivePart else applyAll forms d
  | .part => applyAll forms d
  | .score => applyAll forms (d.select [])

/-- Goes on writing with a line, unless it expands to too much. -/
def evaluate (d : Draft) (entry : Entry) (forms : List Form) : Except ScoreError Draft :=
  if (Form.expandedLengths forms).toNat > maxExpanded then .error (.tooLarge maxExpanded)
  else d.applyLine entry forms

end Draft

end Songline
