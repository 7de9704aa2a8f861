import Songline.Notation.Reader

set_option autoImplicit false

namespace Songline.Grammar

/-- `NR ::= Note | Rest` -/
inductive Member : Token → ChordMember → Prop
  | note (n : Note) : Member (.note n) (.note n)
  | rest (length : Option Length) : Member (.rest length) (.rest length)

/-- `NR (Slash NR)*` -/
inductive Members : List Token → List ChordMember → Prop
  | one {token : Token} {member : ChordMember} :
      Member token member → Members [token] [member]
  | more {tokens : List Token} {members : List ChordMember} {token : Token}
      {member : ChordMember} :
      Members tokens members → Member token member →
        Members (tokens ++ [.slash, token]) (members ++ [member])

/-- One `NR` is a note or a rest, several are a chord. -/
inductive Notes : List Token → Form → Prop
  | note (n : Note) : Notes [.note n] (.note n)
  | rest (length : Option Length) : Notes [.rest length] (.rest length)
  | chord {tokens : List Token} {members : List ChordMember} :
      Members tokens members → 2 ≤ members.length → Notes tokens (.chord members)

/-- What `Repeat?` makes of the tokens before it and their form. -/
inductive Repeated (tokens : List Token) (form : Form) : List Token → Form → Prop
  | once : Repeated tokens form tokens form
  | times (n : UInt32) : Repeated tokens form (tokens ++ [.times n]) (.repeated form n)

/-- `Attr ::= LParen Ident Number RParen`, where a `!` at the end of the name is not part of it. -/
inductive Attribute : List Token → Setting → Prop
  | here {name : String} (value : Float) :
      (∀ stem : String, name ≠ stem ++ "!") →
        Attribute [.openParen, .name name, .number value, .closeParen] ⟨name, value, false⟩
  | everywhere (stem : String) (value : Float) :
      Attribute [.openParen, .name (stem ++ "!"), .number value, .closeParen]
        ⟨stem, value, true⟩

mutual

/-- `Event ::= NR (Slash NR)* Repeat? | OctaveSet | OctaveUp | OctaveDown | Attr | Voice |
LBracket Item* RBracket Repeat?` -/
inductive Event : List Token → Form → Prop
  | notes {tokens event : List Token} {single form : Form} :
      Notes tokens single → Repeated tokens single event form → Event event form
  | octave (n : UInt32) : Event [.octave n] (.octave (.set n))
  | octaveUp : Event [.octaveUp] (.octave .up)
  | octaveDown : Event [.octaveDown] (.octave .down)
  | setting {tokens : List Token} {s : Setting} :
      Attribute tokens s → Event tokens (.setting s)
  | voice (n : UInt32) : Event [.voice n] (.voice n)
  | sequence {tokens event : List Token} {forms : List Form} {form : Form} :
      Items tokens forms →
        Repeated (.openBracket :: tokens ++ [.closeBracket]) (.sequence forms) event form →
          Event event form

/-- `Item*`, where `Item ::= Barline | Event`. -/
inductive Items : List Token → List Form → Prop
  | none : Items [] []
  | barline {tokens : List Token} {forms : List Form} :
      Items tokens forms → Items (tokens ++ [.barline]) forms
  | event {tokens more : List Token} {forms : List Form} {form : Form} :
      Items tokens forms → Event more form → Items (tokens ++ more) (forms ++ [form])

end

/-- A part name starts with two letters. -/
def IsName (name : String) : Prop :=
  ∃ first second rest, name.toList = first :: second :: rest ∧ first.isAlpha ∧ second.isAlpha

/-- `Name (Slash Name)*` -/
inductive Names : List Token → List String → Prop
  | one {name : String} : IsName name → Names [.name name] [name]
  | more {tokens : List Token} {names : List String} {name : String} :
      Names tokens names → IsName name →
        Names (tokens ++ [.slash, .name name]) (names ++ [name])

/-- `Decl ::= Name (Slash Name)* Str? Colon` -/
inductive Declaration : List Token → PartDecl → Prop
  | plain {tokens : List Token} {names : List String} :
      Names tokens names → Declaration (tokens ++ [.colon]) ⟨names, none⟩
  | nicknamed {tokens : List Token} {names : List String} (nick : String) :
      Names tokens names → Declaration (tokens ++ [.quoted nick, .colon]) ⟨names, some nick⟩

/-- `Attr*` -/
inductive Attributes : List Token → List Form → Prop
  | none : Attributes [] []
  | more {tokens more : List Token} {forms : List Form} {s : Setting} :
      Attributes tokens forms → Attribute more s →
        Attributes (tokens ++ more) (forms ++ [.setting s])

/-- `Decl Item*` -/
inductive Part : List Token → List Form → Prop
  | declared {tokens more : List Token} {decl : PartDecl} {forms : List Form} :
      Declaration tokens decl → Items more forms → Part (tokens ++ more) (.part decl :: forms)

/-- `(Decl Item*)+` -/
inductive Parts : List Token → List Form → Prop
  | one {tokens : List Token} {forms : List Form} : Part tokens forms → Parts tokens forms
  | more {tokens more : List Token} {forms further : List Form} :
      Parts tokens forms → Part more further → Parts (tokens ++ more) (forms ++ further)

/-- The texts of an entry. Music data holds at least one event. -/
inductive Derives : Entry → List Token → List Form → Prop
  | musicData {tokens : List Token} {forms : List Form} :
      Items tokens forms → forms ≠ [] → Derives .musicData tokens forms
  | part {tokens : List Token} {forms : List Form} :
      Part tokens forms → Derives .part tokens forms
  | score {tokens more : List Token} {forms further : List Form} :
      Attributes tokens forms → Parts more further →
        Derives .score (tokens ++ more) (forms ++ further)

theorem length_members_pos {tokens : List Token} {members : List ChordMember}
    (derivation : Members tokens members) : 0 < members.length := by
  cases derivation with
  | one member => exact Nat.one_pos
  | more members member => simp

theorem ofMembers_of_several (members : List ChordMember) (several : 2 ≤ members.length) :
    Form.ofMembers members = .chord members := by
  rcases members with _ | ⟨first, _ | ⟨second, rest⟩⟩
  · cases several
  · simp at several
  · cases first <;> rfl

theorem notes_of_members {tokens : List Token} {members : List ChordMember}
    (derivation : Members tokens members) : Notes tokens (.ofMembers members) := by
  cases derivation with
  | one member =>
      cases member with
      | note n => exact .note n
      | rest length => exact .rest length
  | @more tokens members token member before last =>
      have several : 2 ≤ (members ++ [member]).length := by
        have positive := length_members_pos before
        rw [List.length_append, List.length_singleton]
        omega
      rw [ofMembers_of_several _ several]
      exact .chord (.more before last) several

theorem members_of_notes {tokens : List Token} {form : Form} (derivation : Notes tokens form) :
    ∃ members, Members tokens members ∧ form = .ofMembers members := by
  cases derivation with
  | note n => exact ⟨[.note n], .one (.note n), rfl⟩
  | rest length => exact ⟨[.rest length], .one (.rest length), rfl⟩
  | @chord tokens members derivation several =>
      exact ⟨members, derivation, (ofMembers_of_several members several).symm⟩

end Songline.Grammar
