import Songline.Notation.Reading
import Songline.Playback
import Songline.Score.Draft
import Songline.Text.Lines

set_option autoImplicit false

namespace Songline

/-- Why a line was not carried out. -/
inductive TurnError
  | reading (failure : ReadingFailure)
  | evaluation (e : ScoreError)
  | audio (e : AudioError)
deriving DecidableEq, Repr

namespace TurnError

def message : TurnError → String
  | reading failure => failure.message
  | evaluation e => "evaluation error: " ++ e.message
  | audio e => "audio error: " ++ e.message

/-- The messages behind the message, outermost first. -/
def causes : TurnError → List String
  | reading _ => []
  | evaluation e => [e.message]
  | audio e => [e.message]

end TurnError

/-- What a line added to the score, at its place there. -/
structure Evaluated where
  entry : Entry
  added : List Event
deriving DecidableEq, Repr

/-- What a line added, and what was played. -/
structure Turn where
  entry : Entry
  added : List Event
  playback : Playback

/-- A score that grows line by line. Whatever fails leaves no trace in the score; a line that was
read leaves its context. -/
structure Session where
  /-- What the last line that could be read was read as. -/
  context : Entry
  draft : Draft
  snapshot : Score
  /-- The lines that make up the score. -/
  history : List String

namespace Session

def fresh : Session := ⟨.score, .empty, .empty, []⟩

/-- The names of the parts that music data would go to. -/
def partNames (s : Session) : List String := s.draft.currentNames

/-- A line that says nothing: blank, or a comment. -/
def isSilent (text : String) : Bool := text.isEmpty || text.toList.head? == some '#'

/-- Reads and evaluates a line. -/
def evaluateLine (s : Session) (line : String) : Except TurnError (Option Evaluated) × Session :=
  let text := Text.trim line
  if isSilent text then (.ok none, s)
  else
    match Grammar.standard.resolve s.context text with
    | (.error failure, context) => (.error (.reading failure), { s with context := context })
    | (.ok (entry, forms), context) =>
      let s := { s with context := context }
      match s.draft.evaluate entry forms with
      | .error e => (.error (.evaluation e), s)
      | .ok draft =>
        let snapshot := draft.snapshot
        let added := s.snapshot.added snapshot
        (.ok (some ⟨entry, added⟩),
          { s with draft := draft, snapshot := snapshot, history := s.history ++ [text] })

/-- Carries out a line: evaluates it and plays what it added. -/
def turn {World : Type} (s : Session) (sink : Sink World) (options : Playback.Options)
    (line : String) (w : World) : Except TurnError (Option Turn) × Session × World :=
  match s.evaluateLine line with
  | (.error e, s) => (.error e, s, w)
  | (.ok none, s) => (.ok none, s, w)
  | (.ok (some ⟨entry, added⟩), s) =>
    match sink.dispatch options (Event.normalize added) s.snapshot w with
    | (.ok playback, w) => (.ok (some ⟨entry, added, playback⟩), s, w)
    | (.error e, w) => (.error (.audio e), s, w)

/-- Plays the whole score from its first note. -/
def replay {World : Type} (s : Session) (sink : Sink World) (options : Playback.Options)
    (w : World) : Except AudioError Playback × World :=
  sink.dispatch options (Event.normalize s.snapshot.eventList) s.snapshot w

/-- The text that a score is saved as: its lines. -/
def saved (s : Session) : String := String.intercalate "\n" s.history ++ "\n"

/-- How many lines were evaluated and how many events they added. -/
structure Loaded where
  lines : Nat
  notes : Nat
deriving DecidableEq, Repr

/-- Evaluates lines until one fails, and then says which. -/
def loadLines (s : Session) (number : Nat) (done : Loaded) :
    List String → Except (Nat × TurnError) Loaded × Session
  | [] => (.ok done, s)
  | line :: rest =>
    match s.evaluateLine line with
    | (.error e, s) => (.error (number, e), s)
    | (.ok none, s) => s.loadLines (number + 1) done rest
    | (.ok (some evaluated), s) =>
      s.loadLines (number + 1) ⟨done.lines + 1, done.notes + evaluated.added.length⟩ rest

def load (s : Session) (text : String) : Except (Nat × TurnError) Loaded × Session :=
  s.loadLines 1 ⟨0, 0⟩ (Text.lines text)

end Session

end Songline
