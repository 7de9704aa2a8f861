import Songline.Notation.Reading
import Songline.Proofs.CheckedScanner
import Songline.Proofs.WrittenNotes

set_option autoImplicit false

namespace Songline

namespace Checked

/-- A difference, unless it is negative. -/
def difference (a b : Nat) : Checked Nat := if b ≤ a then pure (a - b) else failure

/-- The tokens of a line and their places, and after them its end, which has no token. -/
def vector (line : TokenLine) : Array (Option Token × Position) :=
  let entries := line.tokens.map fun t => (some t.token, t.position)
  (entries ++ [(none, line.finish)]).toArray

/-- The entry at a number, or the last one if there are not so many. -/
def peekAt (entries : Array (Option Token × Position)) (pos : Nat) :
    Checked (Option Token × Position) := do
  let last ← difference entries.size 1
  entries[min pos last]?

/-- The number after a number, as long as there are entries. -/
def advanceAt (entries : Array (Option Token × Position)) (pos : Nat) : Checked Nat :=
  if pos < entries.size then unsigned 32 (pos + 1) else pure pos

/-- Reads the tokens from a number on, in so many rounds. -/
def run (entries : Array (Option Token × Position)) :
    Nat → Reader → Nat → Checked (Except (GrammarFault × Position) (List Form))
  | 0, _, _ => failure
  | rounds + 1, r, pos => do
    match ← peekAt entries pos with
    | (none, place) => return r.finish.mapError (·, place)
    | (some t, place) =>
      match r.feed t with
      | .error fault => return .error (fault, place)
      | .ok next => run entries rounds next (← advanceAt entries pos)

/-- The forms of a line of tokens, read in as many rounds as there are entries. -/
def readLine (line : TokenLine) (entry : Entry) : Checked (Except SyntaxError (List Form)) := do
  let (_, first) ← peekAt (vector line) 0
  let result ← run (vector line) (vector line).size (.start entry) 0
  return result.mapError fun (fault, found) =>
    ⟨.grammar fault, if fault = .noMusic then first else found⟩

def read (text : String) (entry : Entry) : Checked (Except SyntaxError (List Form)) := do
  match ← (Scanner.ofString text).tokens with
  | .error e => return .error e
  | .ok line => readLine line entry

def firstOf (text : String) :
    List Entry → Checked (Except (List (Entry × SyntaxError)) (Entry × List Form))
  | [] => pure (.error [])
  | entry :: entries => do
    match ← read text entry with
    | .ok forms => return .ok (entry, forms)
    | .error e => return (← firstOf text entries).mapError ((entry, e) :: ·)

theorem size_vector (line : TokenLine) : (vector line).size = line.tokens.length + 1 := by
  simp [vector]

/-- There is an entry for every number, however large. -/
theorem peekAt_isSome (line : TokenLine) (pos : Nat) : (peekAt (vector line) pos).isSome := by
  have size := size_vector line
  have last : difference (vector line).size 1 = some ((vector line).size - 1) :=
    if_pos (by omega)
  have inside : min pos ((vector line).size - 1) < (vector line).size := by omega
  simp [peekAt, last, inside]

/-- As long as there are entries, each is found under its number. -/
theorem peekAt_of_lt {line : TokenLine} {pos : Nat} (inside : pos < (vector line).size) :
    peekAt (vector line) pos = (vector line)[pos]? := by
  have last : difference (vector line).size 1 = some ((vector line).size - 1) :=
    if_pos (by omega)
  have same : min pos ((vector line).size - 1) = pos := by omega
  simp [peekAt, last, same]

theorem getElem?_vector_end (line : TokenLine) :
    (vector line)[line.tokens.length]? = some (none, line.finish) := by
  simp [vector]

theorem getElem?_vector_token {line : TokenLine} {pos : Nat} {t : Token.Placed}
    (here : line.tokens[pos]? = some t) :
    (vector line)[pos]? = some (some t.token, t.position) := by
  obtain ⟨inside, same⟩ := List.getElem?_eq_some_iff.mp here
  simp [vector, List.getElem?_append, inside, same]

/-- Reading the array of tokens from a number on is reading the tokens from there on, and takes as
many rounds as there are entries left. -/
theorem run_eq {line : TokenLine} {before after : List Token.Placed}
    (whole : line.tokens = before ++ after) (few : line.tokens.length < 2 ^ 31) (r : Reader) :
    run (vector line) (after.length + 1) r before.length = some (r.run line.finish after) := by
  induction after generalizing before r with
  | nil =>
      have here : before.length = line.tokens.length := by rw [whole, List.append_nil]
      rw [run, here, peekAt_of_lt (by rw [size_vector]; omega), getElem?_vector_end]
      rfl
  | cons t after ih =>
      have count : line.tokens.length = before.length + (after.length + 1) := by
        rw [whole, List.length_append, List.length_cons]
      have here : line.tokens[before.length]? = some t := by
        rw [whole, List.getElem?_append_right (Nat.le_refl _), Nat.sub_self]
        rfl
      have step : advanceAt (vector line) before.length = some (before ++ [t]).length := by
        rw [advanceAt, size_vector, if_pos (by omega), List.length_append, List.length_singleton]
        exact unsigned_eq (by omega)
      have whole' : line.tokens = (before ++ [t]) ++ after := by
        rw [whole, List.append_assoc, List.singleton_append]
      rw [run, peekAt_of_lt (by rw [size_vector]; omega), getElem?_vector_token here]
      simp only [Option.bind_eq_bind, Option.bind_some, Reader.run]
      cases r.feed t.token with
      | error fault => rfl
      | ok next => simp only [step, Option.bind_some, List.length_cons, ih whole' next]

theorem peekAt_first (line : TokenLine) :
    ∃ found, peekAt (vector line) 0 = some (found, line.first) := by
  rw [peekAt_of_lt (by rw [size_vector]; omega)]
  cases tokens : line.tokens with
  | nil => exact ⟨none, by simp [vector, TokenLine.first, tokens]⟩
  | cons t more => exact ⟨some t.token, by simp [vector, TokenLine.first, tokens]⟩

theorem readLine_eq {line : TokenLine} (few : line.tokens.length < 2 ^ 31) (entry : Entry) :
    readLine line entry = some (line.read entry) := by
  obtain ⟨found, first⟩ := peekAt_first line
  have all : run (vector line) (line.tokens.length + 1) (.start entry) 0 = _ :=
    run_eq (List.nil_append line.tokens).symm few (.start entry)
  rw [readLine, first, size_vector, all]
  rfl

/-- Every text that is not too long can be read as every entry. -/
theorem read_eq {text : String} (short : text.length < 2 ^ 31) (entry : Entry) :
    read text entry = some (entry.read text) := by
  rw [read, Scanner.tokens_eq short, Entry.read]
  cases spelt : TokenLine.ofString text with
  | error e => rfl
  | ok line =>
      rw [← String.length_toList] at short
      have fewer := (TokenLine.tokens_ofCharsAt spelt).1
      exact readLine_eq (by omega) entry

theorem firstOf_eq {text : String} (short : text.length < 2 ^ 31) (entries : List Entry) :
    firstOf text entries = some (Grammar.standard.firstOf text entries) := by
  induction entries with
  | nil => rfl
  | cons entry entries ih =>
      rw [firstOf, read_eq short entry, ih, Grammar.firstOf]
      cases read : entry.read text with
      | ok forms => simp [Grammar.standard, read]
      | error e => simp [Grammar.standard, read]

end Checked

end Songline
