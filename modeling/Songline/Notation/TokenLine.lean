import Songline.Notation.Word
import Songline.Text.Lines

set_option autoImplicit false

namespace Songline

/-- A token, the characters that spell it, and the text after them. -/
structure Lexeme where
  token : Token
  spelling : List Char
  rest : List Char

namespace Lexeme

def single (token : Token) (c : Char) (cs : List Char) : Except LexicalFault Lexeme :=
  .ok ⟨token, [c], cs⟩

/-- A quoted text, from after its opening quote. It has no escapes and may span lines. -/
def ofQuoted (cs : List Char) : Except LexicalFault Lexeme :=
  let inner := cs.takeWhile (· ≠ '"')
  match cs.dropWhile (· ≠ '"') with
  | [] => .error .unclosedString
  | close :: rest => .ok ⟨.quoted (String.ofList inner), '"' :: inner ++ [close], rest⟩

/-- A repeat count, from after its asterisk. -/
def ofTimes (cs : List Char) : Except LexicalFault Lexeme :=
  let digits := cs.takeWhile Char.isDigit
  match Count.ofDigits? digits with
  | some n => .ok ⟨.times n, '*' :: digits, cs.dropWhile Char.isDigit⟩
  | none => .error .missingRepeatCount

/-- The digits after a decimal point, if the text starts with a point and a digit. -/
def decimals (cs : List Char) : List Char :=
  match cs with
  | '.' :: tail => tail.takeWhile Char.isDigit
  | _ => []

def numberValue (whole decimals : List Char) : Float :=
  Float.ofScientific (Nat.ofDigitChars 10 (whole ++ decimals) 0) true decimals.length

/-- A number: digits, and digits after a point. A point without a digit after it is left. -/
def ofNumber (cs : List Char) : Lexeme :=
  let whole := cs.takeWhile Char.isDigit
  let tail := cs.dropWhile Char.isDigit
  let places := decimals tail
  if places.isEmpty then ⟨.number (numberValue whole []), whole, tail⟩
  else ⟨.number (numberValue whole places), whole ++ '.' :: places, tail.drop (places.length + 1)⟩

/-- A word; a voice takes the colon after it too. -/
def ofWord (cs : List Char) : Except LexicalFault Lexeme :=
  let word := cs.takeWhile Word.isWordChar
  let rest := cs.dropWhile Word.isWordChar
  match Word.voice? word, rest with
  | some n, ':' :: tail => .ok ⟨.voice n, word ++ [':'], tail⟩
  | _, _ => (Word.classify word).map (⟨·, word, rest⟩)

/-- The lexeme at the head of a text that starts with `c`. -/
def ofChars (c : Char) (cs : List Char) : Except LexicalFault Lexeme :=
  match c with
  | '(' => single .openParen c cs
  | ')' => single .closeParen c cs
  | '[' => single .openBracket c cs
  | ']' => single .closeBracket c cs
  | '/' => single .slash c cs
  | ':' => single .colon c cs
  | '|' => single .barline c cs
  | '>' => single .octaveUp c cs
  | '<' => single .octaveDown c cs
  | '"' => ofQuoted cs
  | '*' => ofTimes cs
  | _ =>
    if c.isDigit then .ok (ofNumber (c :: cs))
    else if c.isAlpha then ofWord (c :: cs)
    else .error (.unexpectedCharacter c)

theorem length_dropWhile_le {α : Type} (p : α → Bool) (l : List α) :
    (l.dropWhile p).length ≤ l.length := (List.dropWhile_suffix p).length_le

theorem length_rest_ofNumber {c : Char} (cs : List Char) (h : c.isDigit = true) :
    (ofNumber (c :: cs)).rest.length ≤ cs.length := by
  have := length_dropWhile_le Char.isDigit cs
  simp only [ofNumber, List.dropWhile_cons, h, if_true]
  split <;> simp only [List.length_drop] <;> omega

theorem isWordChar_of_isAlpha {c : Char} (h : c.isAlpha = true) : Word.isWordChar c = true := by
  simp [Word.isWordChar, Char.isAlphanum, h]

theorem length_rest_ofWord {c : Char} {cs : List Char} {x : Lexeme} (hc : c.isAlpha = true)
    (h : ofWord (c :: cs) = .ok x) : x.rest.length ≤ cs.length := by
  have bound := length_dropWhile_le Word.isWordChar cs
  simp only [ofWord, List.dropWhile_cons, isWordChar_of_isAlpha hc, if_true] at h
  split at h
  · rename_i tail _ eq
    cases h
    have taken := congrArg List.length eq
    simp only [List.length_cons] at taken
    show tail.length ≤ cs.length
    omega
  · cases hw : Word.classify (List.takeWhile Word.isWordChar (c :: cs)) with
    | error e => rw [hw] at h; cases h
    | ok t => rw [hw] at h; cases h; exact bound

/-- A lexeme takes at least the first character. -/
theorem length_rest_le {c : Char} {cs : List Char} {x : Lexeme} (h : ofChars c cs = .ok x) :
    x.rest.length ≤ cs.length := by
  unfold ofChars at h
  split at h
  case h_10 =>
    simp only [ofQuoted] at h
    split at h
    · cases h
    · rename_i rest eq
      cases h
      have bound := length_dropWhile_le (fun x => decide (x ≠ '"')) cs
      have taken := congrArg List.length eq
      simp only [List.length_cons] at taken
      show rest.length ≤ cs.length
      omega
  case h_11 =>
    simp only [ofTimes] at h
    split at h
    · cases h
      exact length_dropWhile_le _ _
    · cases h
  case h_12 =>
    split at h
    · cases h
      exact length_rest_ofNumber cs ‹_›
    · split at h
      · exact length_rest_ofWord ‹_› h
      · cases h
  all_goals cases h; exact Nat.le_refl _

end Lexeme

namespace TokenLine

/-- Splits off leading blanks and comments; `inComment` says that the text starts inside one. -/
def gap (inComment : Bool) : List Char → List Char × List Char
  | [] => ([], [])
  | c :: cs =>
    if inComment then (c :: (gap (c ≠ '\n') cs).1, (gap (c ≠ '\n') cs).2)
    else if Text.isBlank c || c = '#' then (c :: (gap (c = '#') cs).1, (gap (c = '#') cs).2)
    else ([], c :: cs)

/-- A gap and what follows it make up the text. -/
theorem gap_append (b : Bool) (cs : List Char) : (gap b cs).1 ++ (gap b cs).2 = cs := by
  induction cs generalizing b with
  | nil => rfl
  | cons c cs ih =>
    unfold gap
    split
    · simp [ih]
    · split <;> simp [ih]

theorem length_gap_le (b : Bool) (cs : List Char) : (gap b cs).2.length ≤ cs.length := by
  have := congrArg List.length (gap_append b cs)
  simp only [List.length_append] at this
  omega

/-- The tokens of a text that starts at a place. -/
def ofCharsAt (p : Position) (cs : List Char) : Except SyntaxError TokenLine :=
  let here := p.after (gap false cs).1
  match _hrest : (gap false cs).2 with
  | [] => .ok ⟨[], here⟩
  | c :: tail =>
    match _hlex : Lexeme.ofChars c tail with
    | .error fault => .error ⟨.lexical fault, here⟩
    | .ok x =>
      match ofCharsAt (here.after x.spelling) x.rest with
      | .error e => .error e
      | .ok line => .ok ⟨⟨x.token, here⟩ :: line.tokens, line.finish⟩
termination_by cs.length
decreasing_by
  have taken := Lexeme.length_rest_le _hlex
  have bound := length_gap_le false cs
  rw [_hrest, List.length_cons] at bound
  omega

def ofString (s : String) : Except SyntaxError TokenLine := ofCharsAt .start s.toList

end TokenLine

end Songline
