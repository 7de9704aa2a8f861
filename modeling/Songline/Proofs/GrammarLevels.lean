import Songline.Proofs.Grammar

set_option autoImplicit false

namespace Songline

namespace Grammar

theorem Part.barline {tokens : List Token} {forms : List Form} (derivation : Part tokens forms) :
    Part (tokens ++ [.barline]) forms := by
  cases derivation with
  | declared declaration items =>
      rw [List.append_assoc]
      exact .declared declaration (.barline items)

theorem Part.event {tokens more : List Token} {forms : List Form} {form : Form}
    (derivation : Part tokens forms) (event : Event more form) :
    Part (tokens ++ more) (forms ++ [form]) := by
  cases derivation with
  | declared declaration items =>
      rw [List.append_assoc, List.cons_append]
      exact .declared declaration (.event items event)

theorem Parts.barline {tokens : List Token} {forms : List Form} (derivation : Parts tokens forms) :
    Parts (tokens ++ [.barline]) forms := by
  cases derivation with
  | one part => exact .one part.barline
  | more parts part =>
      rw [List.append_assoc]
      exact .more parts part.barline

theorem Parts.event {tokens more : List Token} {forms : List Form} {form : Form}
    (derivation : Parts tokens forms) (event : Event more form) :
    Parts (tokens ++ more) (forms ++ [form]) := by
  cases derivation with
  | one part => exact .one (part.event event)
  | more parts part =>
      rw [List.append_assoc, List.append_assoc]
      exact .more parts (part.event event)

end Grammar

namespace Reader

open Grammar

/-- The text of an entry up to a place between two items. -/
inductive Outline : Entry → List Token → List Form → Prop
  | musicData {tokens : List Token} {forms : List Form} :
      Items tokens forms → Outline .musicData tokens forms
  | part {tokens : List Token} {forms : List Form} :
      Grammar.Part tokens forms → Outline .part tokens forms
  | score {tokens more : List Token} {forms further : List Form} :
      Attributes tokens forms → Parts more further →
        Outline .score (tokens ++ more) (forms ++ further)

/-- The text of an entry up to a part declaration. -/
inductive Preface : Entry → List Token → List Form → Prop
  | part : Preface .part [] []
  | attributes {tokens : List Token} {forms : List Form} :
      Attributes tokens forms → Preface .score tokens forms
  | parts {tokens : List Token} {forms : List Form} :
      Outline .score tokens forms → Preface .score tokens forms

/-- What has been read between two items, at any depth. The forms are latest first. -/
inductive Level (entry : Entry) : Bool → List Token → List Form → List (List Form) → Prop
  | preamble {tokens : List Token} {forms : List Form} :
      entry = .score → Attributes tokens forms → Level entry false tokens forms.reverse []
  | outline {tokens : List Token} {forms : List Form} :
      Outline entry tokens forms → Level entry true tokens forms.reverse []
  | bracket {tokens more : List Token} {forms inner : List Form} {outer : List (List Form)} :
      Level entry true tokens forms outer → Items more inner →
        Level entry true (tokens ++ .openBracket :: more) inner.reverse (forms :: outer)

theorem Outline.barline {entry : Entry} {tokens : List Token} {forms : List Form}
    (outline : Outline entry tokens forms) : Outline entry (tokens ++ [.barline]) forms := by
  cases outline with
  | musicData items => exact .musicData (.barline items)
  | part part => exact .part part.barline
  | score attributes parts =>
      rw [List.append_assoc]
      exact .score attributes parts.barline

theorem Outline.event {entry : Entry} {tokens more : List Token} {forms : List Form} {form : Form}
    (outline : Outline entry tokens forms) (event : Grammar.Event more form) :
    Outline entry (tokens ++ more) (forms ++ [form]) := by
  cases outline with
  | musicData items => exact .musicData (.event items event)
  | part part => exact .part (part.event event)
  | score attributes parts =>
      rw [List.append_assoc, List.append_assoc]
      exact .score attributes (parts.event event)

/-- A declaration opens the first part of a score, or its next one. -/
theorem Preface.declaration {entry : Entry} {tokens more : List Token} {forms : List Form}
    {decl : PartDecl} (preface : Preface entry tokens forms) (declaration : Declaration more decl) :
    Outline entry (tokens ++ more) (forms ++ [.part decl]) := by
  have opened : Grammar.Part more [.part decl] := by
    rw [← List.append_nil more]
    exact .declared declaration .none
  cases preface with
  | part => exact .part opened
  | attributes attributes => exact .score attributes (.one opened)
  | parts outline =>
      cases outline with
      | score attributes parts =>
          rw [List.append_assoc, List.append_assoc]
          exact .score attributes (.more parts opened)

theorem Level.barline {entry : Entry} {tokens : List Token} {forms : List Form}
    {outer : List (List Form)} (level : Level entry true tokens forms outer) :
    Level entry true (tokens ++ [.barline]) forms outer := by
  cases level with
  | outline outline => exact .outline outline.barline
  | bracket level items =>
      rw [List.append_assoc, List.cons_append]
      exact .bracket level (.barline items)

theorem Level.event {entry : Entry} {tokens more : List Token} {forms : List Form} {form : Form}
    {outer : List (List Form)} (level : Level entry true tokens forms outer)
    (event : Grammar.Event more form) :
    Level entry true (tokens ++ more) (form :: forms) outer := by
  cases level with
  | outline outline =>
      rw [← List.reverse_concat]
      exact .outline (outline.event event)
  | bracket level items =>
      rw [List.append_assoc, List.cons_append, ← List.reverse_concat]
      exact .bracket level (.event items event)

theorem Level.attribute {entry : Entry} {declared : Bool} {tokens more : List Token}
    {forms : List Form} {outer : List (List Form)} {s : Setting}
    (level : Level entry declared tokens forms outer) (derivation : Attribute more s) :
    Level entry declared (tokens ++ more) (.setting s :: forms) outer := by
  cases level with
  | preamble score attributes =>
      rw [← List.reverse_concat]
      exact .preamble score (.more attributes derivation)
  | outline outline => exact Level.event (.outline outline) (.setting derivation)
  | bracket level items => exact Level.event (.bracket level items) (.setting derivation)

end Reader

end Songline
