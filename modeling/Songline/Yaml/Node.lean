import Songline.Yaml.Token

set_option autoImplicit false

/- The nodes of a YAML text: scalars, sequences and mappings. An anchor gives a node a mark, and a
reference stands for the last node of the document that has its mark. Marks are counted from 0 over
the names of anchors: a name that comes again gets a new mark, which the next new name will share.

Reading always gives a node. Where the text has a fault a broken node stands, and the collections
around it end there. -/
namespace Songline.Yaml

inductive Node
  | scalar (place : Position) (tag : Option Tag) (text : String) (style : Style)
  | sequence (place : Position) (tag : Option Tag) (items : List Node)
  | mapping (place : Position) (tag : Option Tag) (entries : List (Node × Node))
  /-- A node with an anchor. -/
  | anchored (mark : Nat) (node : Node)
  | reference (place : Position) (mark : Nat)
  | broken (fault : Fault)

namespace Node

/-- A scalar that is not written. -/
def absent (place : Position) (tag : Option Tag) : Node := scalar place tag "" .plain

/-- A node with the mark of its anchor, if it has one. -/
def withMark (mark : Option Nat) (n : Node) : Node := mark.elim n (anchored · n)

def place : Node → Position
  | scalar place _ _ _ | sequence place _ _ | mapping place _ _ | reference place _ => place
  | anchored _ n => n.place
  | broken f => f.place

mutual

/-- The marked nodes from a node on, the later first. -/
def marked : Node → List (Nat × Node)
  | scalar _ _ _ _ | reference _ _ | broken _ => []
  | sequence _ _ items => markedIn items
  | mapping _ _ entries => markedInEntries entries
  | anchored mark n => n.marked ++ [(mark, n)]

def markedIn : List Node → List (Nat × Node)
  | [] => []
  | n :: items => markedIn items ++ n.marked

def markedInEntries : List (Node × Node) → List (Nat × Node)
  | [] => []
  | (key, value) :: entries => markedInEntries entries ++ (value.marked ++ key.marked)

end

mutual

/-- The fault of the first broken node from a node on. -/
def fault? : Node → Option Fault
  | scalar _ _ _ _ | reference _ _ => none
  | sequence _ _ items => faultIn? items
  | mapping _ _ entries => faultInEntries? entries
  | anchored _ n => n.fault?
  | broken f => some f

def faultIn? : List Node → Option Fault
  | [] => none
  | n :: items =>
    match n.fault? with
    | some f => some f
    | none => faultIn? items

def faultInEntries? : List (Node × Node) → Option Fault
  | [] => none
  | (key, value) :: entries =>
    match key.fault?, value.fault? with
    | some f, _ => some f
    | none, some f => some f
    | none, none => faultInEntries? entries

end

/-- The node itself, or the one that it refers to. -/
def follow (nodes : List (Nat × Node)) : Node → Node
  | anchored _ n => n
  | reference place mark => (nodes.lookup mark).getD (reference place mark)
  | n => n

end Node

/-- Tokens that are left, the marks that names of anchors have, and what the handles of tags stand
for. -/
structure Remaining where
  tokens : List Placed
  anchors : List (String × Nat)
  handles : List (String × Tag)

namespace Remaining

def standardHandles : List (String × Tag) :=
  [("!", .ofString "!"), ("!!", .ofString "tag:yaml.org,2002:")]

def ofTokens (tokens : List Placed) : Remaining := ⟨tokens, [], standardHandles⟩

def head (r : Remaining) : Placed := r.tokens.headD (.empty .textEnd .start)

def next (r : Remaining) : Remaining := { r with tokens := r.tokens.tail }

/-- A token that may not come next, or the fault that hides it. -/
def fault (r : Remaining) (problem : Problem) (context : Option (Context × Position)) : Fault :=
  match r.head.token with
  | .unreadable f => f
  | _ => ⟨problem, r.head.start, 0, context⟩

/-- The rest after a comma between items or entries, which the first of them does not need. -/
def afterComma (r : Remaining) (first : Bool) (problem : Problem) (context : Context)
    (start : Position) : Except Fault Remaining :=
  if first then .ok r
  else if r.head.token = .flowEntry then .ok r.next
  else .error (r.fault problem (some (context, start)))

def mark (r : Remaining) (name : String) : Nat × Remaining :=
  let mark := r.anchors.length
  (mark, { r with anchors := (name, mark) :: r.anchors.filter (·.1 ≠ name) })

def markIfNamed (r : Remaining) (name : Option String) : Option Nat × Remaining :=
  match name with
  | some name => let (mark, r) := r.mark name; (some mark, r)
  | none => (none, r)

def expand? (r : Remaining) (t : TagName) : Option Tag :=
  if t.handle = "" then some t.suffix
  else (r.handles.lookup t.handle).map fun expansion => expansion ++ t.suffix

end Remaining

/-- What was read, and what is left unless reading stopped. -/
structure Reading (α : Type) where
  value : α
  rest : Option Remaining

namespace Reading

variable {α β : Type}

/-- The fault at which reading stops. -/
def broken (f : Fault) : Reading Node := ⟨.broken f, none⟩

def map (f : α → β) (x : Reading α) : Reading β := ⟨f x.value, x.rest⟩

/-- Goes on after a value, or makes do with it. -/
def andThen (x : Reading α) (alone : α → β) (next : α → Remaining → Reading β) : Reading β :=
  match x.rest with
  | some r => next x.value r
  | none => ⟨alone x.value, none⟩

end Reading

/-- What may stand before a node, in either order: an anchor, and a tag with its place. -/
structure Properties where
  anchor : Option String
  tag : Option (TagName × Position)

def takeProperties (r : Remaining) : Properties × Remaining :=
  match r.tokens with
  | ⟨.anchor a, _, _⟩ :: ⟨.tag t, place, _⟩ :: rest
  | ⟨.tag t, place, _⟩ :: ⟨.anchor a, _, _⟩ :: rest =>
    (⟨some a, some (t, place)⟩, { r with tokens := rest })
  | ⟨.anchor a, _, _⟩ :: rest => (⟨some a, none⟩, { r with tokens := rest })
  | ⟨.tag t, place, _⟩ :: rest => (⟨none, some (t, place)⟩, { r with tokens := rest })
  | _ => (⟨none, none⟩, r)

/-- What is known of a node before its content. -/
structure Heading where
  start : Position
  mark : Option Nat
  tag : Option Tag

def readHeading (r : Remaining) : Except Fault (Heading × Remaining) := do
  let start := r.head.start
  let (properties, r) := takeProperties r
  let tag ← match r.head.token, properties.tag with
    | .unreadable f, _ => .error f
    | _, none => .ok none
    | _, some (name, place) =>
      match r.expand? name with
      | some tag => .ok (some tag)
      | none => .error ⟨.unknownHandle, place, 0, some (.node, start)⟩
  let (mark, r) := r.markIfNamed properties.anchor
  .ok (⟨start, mark, tag⟩, r)

/-- Where a node stands. -/
inductive Place
  /-- Within brackets. -/
  | flow
  | block
  /-- A key or a value of a block mapping, where a sequence needs no indentation. -/
  | entry
deriving DecidableEq, Repr

def Place.context : Place → Context
  | flow => .flowNode
  | block | entry => .blockNode

/-- A node that is not written before the next token. -/
def readNothing (r : Remaining) : Reading Node :=
  match r.head.token with
  | .unreadable f => .broken f
  | _ => ⟨.absent r.head.start none, some r⟩

mutual

/-- Reads a node. The number bounds the tokens and the depth. -/
def readNode (fuel : Nat) (place : Place) (r : Remaining) : Reading Node :=
  match fuel with
  | 0 => ⟨.absent r.head.start none, none⟩
  | n + 1 =>
    match r.head.token with
    | .reference name =>
      match r.anchors.lookup name with
      | some mark => ⟨.reference r.head.start mark, some r.next⟩
      | none => .broken ⟨.unknownAnchor, r.head.start, 0, none⟩
    | _ =>
      match readHeading r with
      | .error f => .broken f
      | .ok (h, r) => (readContent n place h r).map (.withMark h.mark)

def readContent (fuel : Nat) (place : Place) (h : Heading) (r : Remaining) : Reading Node :=
  match fuel with
  | 0 => ⟨.absent r.head.start none, none⟩
  | n + 1 =>
    let start := r.head.start
    match r.head.token, place with
    | .scalar text style, _ => ⟨.scalar h.start h.tag text style, some r.next⟩
    | .blockEntry, .entry => (readUnindented n r).map (.sequence h.start h.tag)
    | .flowSequenceStart, _ => (readFlowItems n true start r.next).map (.sequence h.start h.tag)
    | .flowMappingStart, _ => (readFlowEntries n true start r.next).map (.mapping h.start h.tag)
    | .blockSequenceStart, .block | .blockSequenceStart, .entry =>
      (readBlockItems n start r.next).map (.sequence h.start h.tag)
    | .blockMappingStart, .block | .blockMappingStart, .entry =>
      (readBlockEntries n start r.next).map (.mapping h.start h.tag)
    | _, _ =>
      if h.mark.isSome || h.tag.isSome then ⟨.absent h.start h.tag, some r⟩
      else .broken (r.fault .noContent (some (place.context, h.start)))

/-- Reads a node, or says that it is not written if one of some tokens comes next. -/
def readOptional (fuel : Nat) (place : Place) (stops : List Token) (missing : Position)
    (r : Remaining) : Reading Node :=
  match fuel with
  | 0 => ⟨.absent missing none, none⟩
  | n + 1 =>
    if stops.contains r.head.token then ⟨.absent missing none, some r⟩ else readNode n place r

def readBlockItems (fuel : Nat) (start : Position) (r : Remaining) : Reading (List Node) :=
  match fuel with
  | 0 => ⟨[], none⟩
  | n + 1 =>
    match r.head.token with
    | .blockEntry =>
      (readOptional n .block [.blockEntry, .blockEnd] r.head.stop r.next).andThen ([·])
        fun item r => (readBlockItems n start r).map (item :: ·)
    | .blockEnd => ⟨[], some r.next⟩
    | _ => ⟨[.broken (r.fault .noItem (some (.blockSequence, start)))], none⟩

/-- Reads the items of a sequence that is not indented. -/
def readUnindented (fuel : Nat) (r : Remaining) : Reading (List Node) :=
  match fuel with
  | 0 => ⟨[], none⟩
  | n + 1 =>
    match r.head.token with
    | .blockEntry =>
      (readOptional n .block [.blockEntry, .key, .value, .blockEnd] r.head.stop r.next).andThen
        ([·]) fun item r => (readUnindented n r).map (item :: ·)
    | .unreadable f => ⟨[.broken f], none⟩
    | _ => ⟨[], some r⟩

/-- Reads the value of an entry of a block mapping, if it has one. -/
def readBlockValue (fuel : Nat) (r : Remaining) : Reading Node :=
  match fuel with
  | 0 => ⟨.absent r.head.start none, none⟩
  | n + 1 =>
    if r.head.token = .value then
      readOptional n .entry [.key, .value, .blockEnd] r.head.stop r.next
    else readNothing r

def readBlockEntries (fuel : Nat) (start : Position) (r : Remaining) :
    Reading (List (Node × Node)) :=
  match fuel with
  | 0 => ⟨[], none⟩
  | n + 1 =>
    match r.head.token with
    | .key =>
      (readOptional n .entry [.key, .value, .blockEnd] r.head.stop r.next).andThen
        (fun key => [(key, .absent key.place none)])
        fun key r =>
          (readBlockValue n r).andThen (fun value => [(key, value)])
            fun value r => (readBlockEntries n start r).map ((key, value) :: ·)
    | .blockEnd => ⟨[], some r.next⟩
    | _ =>
      let fault := r.fault .noKey (some (.blockMapping, start))
      ⟨[(.broken fault, .broken fault)], none⟩

/-- Reads the value of an entry within brackets, if it has one. -/
def readFlowValue (fuel : Nat) (close : Token) (r : Remaining) : Reading Node :=
  match fuel with
  | 0 => ⟨.absent r.head.start none, none⟩
  | n + 1 =>
    if r.head.token = .value then
      readOptional n .flow [.flowEntry, close] r.next.head.start r.next
    else readNothing r

/-- Reads the items of a sequence in brackets, and its end. An item with a key is a mapping. -/
def readFlowItems (fuel : Nat) (first : Bool) (start : Position) (r : Remaining) :
    Reading (List Node) :=
  match fuel with
  | 0 => ⟨[], none⟩
  | n + 1 =>
    if r.head.token = .flowSequenceEnd then ⟨[], some r.next⟩
    else
      match r.afterComma first .noItemEnd .flowSequence start with
      | .error f => ⟨[.broken f], none⟩
      | .ok r =>
        match r.head.token with
        | .flowSequenceEnd => ⟨[], some r.next⟩
        | .key =>
          let pair (key value : Node) : Node := .mapping r.head.start none [(key, value)]
          (readPairKey n r.next).andThen (fun key => [pair key (.absent key.place none)])
            fun key r =>
              (readFlowValue n .flowSequenceEnd r).andThen (fun value => [pair key value])
                fun value r => (readFlowItems n false start r).map (pair key value :: ·)
        | _ =>
          (readNode n .flow r).andThen ([·])
            fun item r => (readFlowItems n false start r).map (item :: ·)

/-- Reads the key of an item that is a mapping. If it is not written, the next token is lost. -/
def readPairKey (fuel : Nat) (r : Remaining) : Reading Node :=
  match fuel with
  | 0 => ⟨.absent r.head.start none, none⟩
  | n + 1 =>
    if [Token.value, .flowEntry, .flowSequenceEnd].contains r.head.token then
      ⟨.absent r.head.stop none, some r.next⟩
    else readNode n .flow r

def readFlowEntries (fuel : Nat) (first : Bool) (start : Position) (r : Remaining) :
    Reading (List (Node × Node)) :=
  match fuel with
  | 0 => ⟨[], none⟩
  | n + 1 =>
    if r.head.token = .flowMappingEnd then ⟨[], some r.next⟩
    else
      match r.afterComma first .noEntryEnd .flowMapping start with
      | .error f => ⟨[(.broken f, .broken f)], none⟩
      | .ok r =>
        match r.head.token with
        | .flowMappingEnd => ⟨[], some r.next⟩
        | .key =>
          let missing := r.next.head.start
          (readOptional n .flow [.value, .flowEntry, .flowMappingEnd] missing r.next).andThen
            (fun key => [(key, .absent key.place none)])
            fun key r =>
              (readFlowValue n .flowMappingEnd r).andThen (fun value => [(key, value)])
                fun value r => (readFlowEntries n false start r).map ((key, value) :: ·)
        | _ =>
          (readNode n .flow r).andThen (fun key => [(key, .absent key.place none)])
            fun key r =>
              (readNothing r).andThen (fun value => [(key, value)])
                fun value r => (readFlowEntries n false start r).map ((key, value) :: ·)

end

/-- Reads the directives before a document: one version at most, and no handle twice. -/
def readDirectives (versioned : Bool) (handles : List (String × Tag)) :
    List Placed → Except Fault (List (String × Tag) × List Placed)
  | ⟨.version major minor, place, _⟩ :: rest =>
    if versioned then .error ⟨.secondVersion, place, 0, none⟩
    else if major ≠ 1 || (minor ≠ 1 && minor ≠ 2) then .error ⟨.wrongVersion, place, 0, none⟩
    else readDirectives true handles rest
  | ⟨.tagHandle handle expansion, place, _⟩ :: rest =>
    if (handles.lookup handle).isSome then .error ⟨.secondHandle, place, 0, none⟩
    else readDirectives versioned (handles ++ [(handle, expansion)]) rest
  | tokens => .ok (handles, tokens)

def opensDocument : Token → Bool
  | .version _ _ | .tagHandle _ _ | .documentStart => true
  | _ => false

/-- Whether a document that was opened has no content when a token comes next. -/
def endsDocument (t : Token) : Bool := opensDocument t || t = .documentEnd || t = .textEnd

def readRoot (r : Remaining) : Reading Node := readNode (3 * r.tokens.length + 3) .block r

def readDocument (tokens : List Placed) : Reading Node :=
  let r := Remaining.ofTokens tokens
  if !opensDocument r.head.token then readRoot r
  else
    match readDirectives false [] tokens with
    | .error f => .broken f
    | .ok (handles, rest) =>
      let r : Remaining := ⟨rest, [], handles ++ Remaining.standardHandles⟩
      if r.head.token ≠ .documentStart then .broken (r.fault .noDocumentStart none)
      else if endsDocument r.next.head.token then readNothing r.next
      else readRoot r.next

/-- What comes after a document. -/
inductive Sequel
  | nothing
  /-- A document, or text that is none. -/
  | more
  /-- A fault before the end of the document is found. -/
  | fault (f : Fault)

/-- What comes after a document, by the tokens after its root. -/
def Sequel.ofTokens (r : Remaining) : Sequel :=
  match r.head.token with
  | .unreadable f => .fault f
  | _ =>
    let rest := r.tokens.dropWhile (·.token = .documentEnd)
    if rest.head?.all (·.token = .textEnd) then .nothing else .more

/-- What a text holds. -/
inductive Content
  /-- No document at all. -/
  | nothing
  | document (root : Node) (sequel : Sequel)

def content (text : String) : Content :=
  match tokens text with
  | [] | ⟨.textEnd, _, _⟩ :: _ => .nothing
  | tokens =>
    let root := readDocument tokens
    .document root.value (root.rest.elim .nothing .ofTokens)

end Songline.Yaml
