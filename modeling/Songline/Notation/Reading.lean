import Songline.Notation.Reader

set_option autoImplicit false

namespace Songline

/-- Anything that reads texts as entries. -/
abbrev Grammar := String → Entry → Except SyntaxError (List Form)

def Grammar.standard : Grammar := fun text entry => entry.read text

/-- Why no entry accepted a line: one error for each, in the order in which they were tried. -/
structure ReadingFailure where
  attempts : List (Entry × SyntaxError)
deriving DecidableEq, Repr

namespace Grammar

/-- The first of some entries that accepts a text, with the forms; or what was wrong with each. -/
def firstOf (g : Grammar) (text : String) :
    List Entry → Except (List (Entry × SyntaxError)) (Entry × List Form)
  | [] => .error []
  | entry :: entries =>
    match g text entry with
    | .ok forms => .ok (entry, forms)
    | .error e => (g.firstOf text entries).mapError ((entry, e) :: ·)

def read (g : Grammar) (text : String) : Except ReadingFailure (Entry × List Form) :=
  (g.firstOf text Entry.byPriority).mapError ReadingFailure.mk

/-- Reads a line. The entry that accepts it is the context from then on. -/
def resolve (g : Grammar) (context : Entry) (text : String) :
    Except ReadingFailure (Entry × List Form) × Entry :=
  match g.read text with
  | .ok (entry, forms) => (.ok (entry, forms), entry)
  | .error failure => (.error failure, context)

end Grammar

namespace ReadingFailure

/-- Keeps the attempt that got further, and the earlier of two that got equally far. -/
def further (best : Option (Entry × SyntaxError)) (attempt : Entry × SyntaxError) :
    Option (Entry × SyntaxError) :=
  match best with
  | none => some attempt
  | some b => if b.2.position.precedes attempt.2.position then some attempt else some b

def furthest (f : ReadingFailure) : Option (Entry × SyntaxError) := f.attempts.foldl further none

def message (f : ReadingFailure) : String :=
  match f.furthest with
  | some (entry, e) => "syntax error (as " ++ entry.name ++ "): " ++ e.text
  | none => "syntax error"

end ReadingFailure

end Songline
