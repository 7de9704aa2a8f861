import Songline.Proofs.CheckedWords
import Songline.Proofs.Lexemes

set_option autoImplicit false

/- Tokens, read from an array of characters at places that are counted along. Every character is
looked up where one is, and no count leaves its type, as long as the text is not too long. A loop
has as many rounds as there are characters, and one more to find the end; it cannot be done in fewer
than it needs, so that all of it can be done means that it ends, too. -/
namespace Songline

namespace Checked

/-- The characters of a text, how many of them have been read, and the place after those. -/
structure Scanner where
  chars : Array Char
  pos : Nat
  place : Position

namespace Scanner

def ofString (s : String) : Scanner := ⟨s.toList.toArray, 0, .start⟩

def isAtEnd (s : Scanner) : Bool := s.chars.size ≤ s.pos

def peek (s : Scanner) : Checked Char := s.chars[s.pos]?

def peekNext (s : Scanner) : Checked (Option Char) := do
  let next ← unsigned 32 (s.pos + 1)
  return s.chars[next]?

def advance (s : Scanner) : Checked (Char × Scanner) := do
  let c ← s.peek
  let pos ← unsigned 32 (s.pos + 1)
  if c = '\n' then
    let line ← unsigned 32 (s.place.line + 1)
    return (c, { s with pos := pos, place := ⟨line, 1⟩ })
  else
    let col ← unsigned 32 (s.place.col + 1)
    return (c, { s with pos := pos, place := ⟨s.place.line, col⟩ })

/-- The rounds of a loop over the text. -/
def rounds (s : Scanner) : Nat := s.chars.size + 1

/-- Reads characters of one kind, in so many rounds. -/
def takeWhileIn (p : Char → Bool) : Nat → Scanner → Checked (List Char × Scanner)
  | 0, _ => failure
  | rounds + 1, s => do
    if s.isAtEnd then return ([], s)
    if p (← s.peek) then
      let (c, next) ← s.advance
      let (cs, last) ← takeWhileIn p rounds next
      return (c :: cs, last)
    else return ([], s)

def takeWhile (p : Char → Bool) (s : Scanner) : Checked (List Char × Scanner) :=
  takeWhileIn p s.rounds s

def skipGapIn : Nat → Scanner → Checked Scanner
  | 0, _ => failure
  | rounds + 1, s => do
    if s.isAtEnd then return s
    let c ← s.peek
    if Text.isBlank c then
      let (_, next) ← s.advance
      skipGapIn rounds next
    else if c = '#' then
      let (_, next) ← s.takeWhile (· ≠ '\n')
      skipGapIn rounds next
    else return s

def skipGap (s : Scanner) : Checked Scanner := skipGapIn s.rounds s

/-- A token that is read, and the scanner after it. -/
abbrev Found := Except LexicalFault (Token × Scanner)

def single (token : Token) (s : Scanner) : Checked Found := do
  let (_, next) ← s.advance
  return .ok (token, next)

def quoted (s : Scanner) : Checked Found := do
  let (_, inside) ← s.advance
  let (inner, close) ← inside.takeWhile (· ≠ '"')
  if close.isAtEnd then return .error .unclosedString
  let (_, next) ← close.advance
  return .ok (.quoted (String.ofList inner), next)

def times (s : Scanner) : Checked Found := do
  let (_, next) ← s.advance
  let (digits, last) ← next.takeWhile Char.isDigit
  match Count.ofDigits? digits with
  | some n => return .ok (.times n, last)
  | none => return .error .missingRepeatCount

def number (s : Scanner) : Checked Found := do
  let (whole, point) ← s.takeWhile Char.isDigit
  let plain : Found := .ok (.number (Lexeme.numberValue whole []), point)
  if point.isAtEnd then return plain
  if (← point.peek) ≠ '.' then return plain
  if !(← point.peekNext).any Char.isDigit then return plain
  let (_, next) ← point.advance
  let (places, last) ← next.takeWhile Char.isDigit
  return .ok (.number (Lexeme.numberValue whole places), last)

def atColon (s : Scanner) : Checked Bool := do
  if s.isAtEnd then return false
  return (← s.peek) = ':'

def word (s : Scanner) : Checked Found := do
  let (word, stop) ← s.takeWhile Word.isWordChar
  match Word.voice? word, ← stop.atColon with
  | some n, true =>
    let (_, next) ← stop.advance
    return .ok (.voice n, next)
  | _, _ => return (← classify word).map (·, stop)

/-- The token at the head of a text that starts with `c`. -/
def lexeme (c : Char) (s : Scanner) : Checked Found :=
  match c with
  | '(' => s.single .openParen
  | ')' => s.single .closeParen
  | '[' => s.single .openBracket
  | ']' => s.single .closeBracket
  | '/' => s.single .slash
  | ':' => s.single .colon
  | '|' => s.single .barline
  | '>' => s.single .octaveUp
  | '<' => s.single .octaveDown
  | '"' => s.quoted
  | '*' => s.times
  | _ =>
    if c.isDigit then s.number
    else if c.isAlpha then s.word
    else pure (.error (.unexpectedCharacter c))

/-- The tokens of the text that is left, read in so many rounds. -/
def tokensIn : Nat → Scanner → Checked (Except SyntaxError TokenLine)
  | 0, _ => failure
  | rounds + 1, s => do
    let here ← s.skipGap
    if here.isAtEnd then return .ok ⟨[], here.place⟩
    match ← here.lexeme (← here.peek) with
    | .error fault => return .error ⟨.lexical fault, here.place⟩
    | .ok (token, next) =>
      match ← tokensIn rounds next with
      | .error e => return .error e
      | .ok line => return .ok ⟨⟨token, here.place⟩ :: line.tokens, line.finish⟩

def tokens (s : Scanner) : Checked (Except SyntaxError TokenLine) := tokensIn s.rounds s

/-- The scanner that has read a part of a text and has the rest before it. -/
def between (read rest : List Char) : Scanner :=
  ⟨(read ++ rest).toArray, read.length, Position.start.after read⟩

@[simp] theorem place_between (read rest : List Char) :
    (between read rest).place = Position.start.after read := rfl

/-- Reading a character does not change how long the text is. -/
theorem short_concat {read rest : List Char} {c : Char}
    (short : read.length + (c :: rest).length < 2 ^ 31) :
    (read ++ [c]).length + rest.length < 2 ^ 31 := by
  rw [List.length_cons] at short
  rw [List.length_append, List.length_singleton]
  omega

theorem length_lt_rounds (read rest : List Char) : rest.length < (between read rest).rounds := by
  simp only [rounds, between, List.size_toArray, List.length_append]
  omega

theorem isAtEnd_between (read rest : List Char) :
    (between read rest).isAtEnd = rest.isEmpty := by
  cases rest with
  | nil => simp [isAtEnd, between]
  | cons c rest => simp [isAtEnd, between]

theorem peek_between (read : List Char) (c : Char) (rest : List Char) :
    (between read (c :: rest)).peek = some c := by
  simp [peek, between]

theorem after_le {p : Position} {k : Nat} (line : p.line ≤ k) (col : p.col ≤ k) (cs : List Char) :
    (p.after cs).line ≤ k + cs.length ∧ (p.after cs).col ≤ k + cs.length := by
  induction cs generalizing p k with
  | nil => exact ⟨line, col⟩
  | cons c cs ih =>
      have next : (p.next c).line ≤ k + 1 ∧ (p.next c).col ≤ k + 1 := by
        unfold Position.next
        split <;> simp only <;> omega
      have later := ih next.1 next.2
      rw [List.length_cons, Position.after_cons]
      omega

theorem peekNext_between {read rest : List Char} {c : Char} (short : read.length < 2 ^ 31) :
    (between read (c :: rest)).peekNext = some rest.head? := by
  have fits : unsigned 32 (read.length + 1) = some (read.length + 1) := unsigned_eq (by omega)
  cases rest <;> simp [peekNext, between, fits]

theorem advance_between {read rest : List Char} {c : Char}
    (short : read.length + (c :: rest).length < 2 ^ 31) :
    (between read (c :: rest)).advance = some (c, between (read ++ [c]) rest) := by
  have bound := after_le (p := .start) (k := 1) (Nat.le_refl 1) (Nat.le_refl 1) read
  rw [List.length_cons] at short
  have pos : unsigned 32 (read.length + 1) = some (read.length + 1) := unsigned_eq (by omega)
  have line : unsigned 32 ((Position.start.after read).line + 1) = some _ :=
    unsigned_eq (by omega)
  have col : unsigned 32 ((Position.start.after read).col + 1) = some _ := unsigned_eq (by omega)
  have text : (read ++ [c] ++ rest).toArray = (read ++ c :: rest).toArray := by
    rw [List.append_assoc, List.singleton_append]
  have place : Position.start.after (read ++ [c]) = (Position.start.after read).next c := by
    rw [Position.after_append]
    rfl
  have here := peek_between read c rest
  simp only [advance, here, place_between, Option.bind_eq_bind, Option.bind_some]
  simp only [between, pos, line, col, text, place, Position.next, List.length_append,
    List.length_singleton, Option.bind_some]
  split <;> rfl

theorem takeWhileIn_between (p : Char → Bool) {n : Nat} (read rest : List Char)
    (short : read.length + rest.length < 2 ^ 31) (enough : rest.length < n) :
    takeWhileIn p n (between read rest) =
      some (rest.takeWhile p, between (read ++ rest.takeWhile p) (rest.dropWhile p)) := by
  induction n generalizing read rest with
  | zero => exact absurd enough (Nat.not_lt_zero _)
  | succ n ih =>
      cases rest with
      | nil =>
          rw [takeWhileIn, isAtEnd_between]
          simp
      | cons c rest =>
          rw [takeWhileIn, isAtEnd_between, peek_between, advance_between short]
          have later := ih (read ++ [c]) rest (short_concat short) (Nat.lt_of_succ_lt_succ enough)
          by_cases kind : p c = true
          · simp [kind, later, List.append_assoc]
          · simp [kind]

theorem takeWhile_between (p : Char → Bool) (read rest : List Char)
    (short : read.length + rest.length < 2 ^ 31) :
    (between read rest).takeWhile p =
      some (rest.takeWhile p, between (read ++ rest.takeWhile p) (rest.dropWhile p)) :=
  takeWhileIn_between p read rest short (length_lt_rounds read rest)

theorem length_span (p : Char → Bool) (cs : List Char) :
    (cs.takeWhile p).length + (cs.dropWhile p).length = cs.length := by
  rw [← List.length_append, List.takeWhile_append_dropWhile]

/-- Nor does reading characters of one kind. -/
theorem short_span {p : Char → Bool} {read rest tail : List Char} {c : Char}
    (short : read.length + rest.length < 2 ^ 31) (left : rest.dropWhile p = c :: tail) :
    (read ++ rest.takeWhile p).length + (c :: tail).length < 2 ^ 31 := by
  have whole := length_span p rest
  rw [left] at whole
  rw [List.length_append]
  omega

/-- A comment goes on to the end of its line, and a gap goes on after that. -/
theorem gap_comment (cs : List Char) :
    TokenLine.gap true cs =
      (cs.takeWhile (· ≠ '\n') ++ (TokenLine.gap false (cs.dropWhile (· ≠ '\n'))).1,
        (TokenLine.gap false (cs.dropWhile (· ≠ '\n'))).2) := by
  induction cs with
  | nil => rfl
  | cons c cs ih =>
      by_cases ends : c = '\n'
      · subst ends
        rfl
      · simp [TokenLine.gap, ends, ih]

theorem skipGapIn_between {n : Nat} (read rest : List Char)
    (short : read.length + rest.length < 2 ^ 31) (enough : rest.length < n) :
    skipGapIn n (between read rest) =
      some (between (read ++ (TokenLine.gap false rest).1) (TokenLine.gap false rest).2) := by
  induction n generalizing read rest with
  | zero => exact absurd enough (Nat.not_lt_zero _)
  | succ n ih =>
      cases rest with
      | nil =>
          rw [skipGapIn, isAtEnd_between]
          simp [TokenLine.gap]
      | cons c rest =>
          rw [skipGapIn, isAtEnd_between, peek_between, advance_between short,
            takeWhile_between _ _ _ short]
          by_cases blank : Text.isBlank c = true
          · have later := ih (read ++ [c]) rest (short_concat short)
              (Nat.lt_of_succ_lt_succ enough)
            have note : c ≠ '#' := by
              rintro rfl
              revert blank
              decide
            simp [TokenLine.gap, blank, later, note]
          · by_cases note : c = '#'
            · subst note
              rw [List.length_cons] at short enough
              have total := length_span (· ≠ '\n') rest
              have later := ih (read ++ '#' :: rest.takeWhile (· ≠ '\n'))
                (rest.dropWhile (· ≠ '\n')) (by
                  rw [List.length_append, List.length_cons]
                  omega) (by omega)
              simpa [TokenLine.gap, gap_comment, blank] using later
            · simp [TokenLine.gap, blank, note]

theorem skipGap_between (read rest : List Char) (short : read.length + rest.length < 2 ^ 31) :
    (between read rest).skipGap =
      some (between (read ++ (TokenLine.gap false rest).1) (TokenLine.gap false rest).2) :=
  skipGapIn_between read rest short (length_lt_rounds read rest)

/-- A lexeme that is found after what has been read. -/
def behind (read : List Char) (x : Lexeme) : Token × Scanner :=
  (x.token, between (read ++ x.spelling) x.rest)

section Lexemes

variable {read rest : List Char} {c : Char}

theorem single_between (token : Token) (short : read.length + (c :: rest).length < 2 ^ 31) :
    (between read (c :: rest)).single token =
      some ((Lexeme.single token c rest).map (behind read)) := by
  simp only [single, advance_between short, Option.bind_eq_bind, Option.bind_some]
  rfl

theorem quoted_between (short : read.length + ('"' :: rest).length < 2 ^ 31) :
    (between read ('"' :: rest)).quoted =
      some ((Lexeme.ofQuoted rest).map (behind read)) := by
  have inside := short_concat short
  simp only [quoted, advance_between short, takeWhile_between _ _ _ inside, isAtEnd_between,
    Option.bind_eq_bind, Option.bind_some, Lexeme.ofQuoted]
  cases left : rest.dropWhile (· ≠ '"') with
  | nil => rfl
  | cons close tail =>
      rw [advance_between (short_span inside left)]
      simp [behind, Except.map]

theorem times_between (short : read.length + ('*' :: rest).length < 2 ^ 31) :
    (between read ('*' :: rest)).times = some ((Lexeme.ofTimes rest).map (behind read)) := by
  have inside := short_concat short
  simp only [times, advance_between short, takeWhile_between _ _ _ inside, Option.bind_eq_bind,
    Option.bind_some, Lexeme.ofTimes]
  cases Count.ofDigits? (rest.takeWhile Char.isDigit) with
  | none => rfl
  | some n => simp [behind, Except.map]

theorem number_between (short : read.length + rest.length < 2 ^ 31) :
    (between read rest).number = some (.ok (behind read (Lexeme.ofNumber rest))) := by
  simp only [number, takeWhile_between _ _ _ short, isAtEnd_between, Option.bind_eq_bind,
    Option.bind_some, Lexeme.ofNumber]
  cases left : rest.dropWhile Char.isDigit with
  | nil => simp [Lexeme.decimals, behind]
  | cons point tail =>
      have here := short_span short left
      rw [peek_between, peekNext_between (by omega), advance_between here]
      by_cases dot : point = '.'
      · subst dot
        cases tail with
        | nil => simp [Lexeme.decimals, behind]
        | cons d tail =>
            by_cases digit : d.isDigit = true
            · have places := takeWhile_between Char.isDigit
                (read ++ rest.takeWhile Char.isDigit ++ ['.']) (d :: tail) (short_concat here)
              rw [List.append_assoc] at places
              simp [Lexeme.decimals, behind, digit, places, Lexeme.drop_length_takeWhile]
            · simp [Lexeme.decimals, behind, digit]
      · simp [behind, dot, Lexeme.decimals_of_ne tail dot]

theorem atColon_between : (between read rest).atColon = some (rest.head? == some ':') := by
  unfold atColon
  rw [isAtEnd_between]
  cases rest with
  | nil => rfl
  | cons c rest => simp [peek_between, Bool.beq_eq_decide_eq]

theorem word_between (short : read.length + rest.length < 2 ^ 31) :
    (between read rest).word = some ((Lexeme.ofWord rest).map (behind read)) := by
  have fewer := (List.takeWhile_prefix Word.isWordChar (l := rest)).length_le
  simp only [word, takeWhile_between _ _ _ short, atColon_between, Option.bind_eq_bind,
    Option.bind_some, Lexeme.ofWord, classify_eq (rest.takeWhile Word.isWordChar) (by omega)]
  cases voice : Word.voice? (rest.takeWhile Word.isWordChar) with
  | none =>
      simp only
      cases Word.classify (rest.takeWhile Word.isWordChar) <;> rfl
  | some n =>
      cases left : rest.dropWhile Word.isWordChar with
      | nil =>
          simp only
          cases Word.classify (rest.takeWhile Word.isWordChar) <;> rfl
      | cons d tail =>
          by_cases colon : d = ':'
          · subst colon
            rw [advance_between (short_span short left)]
            simp [behind, Except.map]
          · have other : ((d :: tail).head? == some ':') = false := by simpa using colon
            simp only [other]
            split
            · rename_i same
              cases same
              exact absurd rfl colon
            · cases Word.classify (rest.takeWhile Word.isWordChar) <;> rfl

theorem lexeme_between (short : read.length + (c :: rest).length < 2 ^ 31) :
    (between read (c :: rest)).lexeme c = some ((Lexeme.ofChars c rest).map (behind read)) := by
  unfold lexeme
  split
  case h_10 => exact quoted_between short
  case h_11 => exact times_between short
  case h_12 =>
    simp only [Lexeme.ofChars, *]
    split
    · exact number_between short
    · split
      · exact word_between short
      · rfl
  all_goals exact single_between _ short

end Lexemes

theorem tokensIn_between {n : Nat} (read rest : List Char)
    (short : read.length + rest.length < 2 ^ 31) (enough : rest.length < n) :
    tokensIn n (between read rest) =
      some (TokenLine.ofCharsAt (Position.start.after read) rest) := by
  induction n generalizing read rest with
  | zero => exact absurd enough (Nat.not_lt_zero _)
  | succ n ih =>
      have gap := TokenLine.gap_append false rest
      rw [tokensIn, skipGap_between _ _ short, TokenLine.ofCharsAt]
      simp only [Option.bind_eq_bind, Option.bind_some, isAtEnd_between, place_between,
        Position.after_append]
      cases left : (TokenLine.gap false rest).2 with
      | nil => rfl
      | cons c tail =>
          rw [left] at gap
          have total := congrArg List.length gap
          rw [List.length_append] at total
          have here :
              (read ++ (TokenLine.gap false rest).1).length + (c :: tail).length < 2 ^ 31 := by
            rw [List.length_append]
            omega
          simp only [List.isEmpty_cons, Bool.false_eq_true, ↓reduceIte, peek_between,
            Option.bind_some, lexeme_between here]
          cases found : Lexeme.ofChars c tail with
          | error fault => rfl
          | ok x =>
              have spelt := congrArg List.length (Lexeme.spelling_append_rest found)
              have shorter := Lexeme.length_rest_le found
              rw [List.length_append] at spelt
              rw [List.length_cons] at total
              have later := ih (read ++ (TokenLine.gap false rest).1 ++ x.spelling)
                x.rest (by
                  rw [List.length_append]
                  omega) (by omega)
              rw [Position.after_append, Position.after_append] at later
              simp only [Except.map, behind, later, Option.bind_some]
              cases TokenLine.ofCharsAt _ x.rest <;> rfl

/-- The tokens of every text that is not too long can be read, and are those of the text. -/
theorem tokens_eq {text : String} (short : text.length < 2 ^ 31) :
    (ofString text).tokens = some (TokenLine.ofString text) := by
  rw [← String.length_toList] at short
  refine tokensIn_between [] text.toList ?_ (length_lt_rounds [] text.toList)
  rw [List.length_nil, Nat.zero_add]
  exact short

end Scanner

end Checked

end Songline
