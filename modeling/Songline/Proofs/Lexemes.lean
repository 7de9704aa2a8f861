import Songline.Notation.TokenLine

set_option autoImplicit false

namespace Songline

namespace Lexeme

theorem ofQuoted_append {cs : List Char} {x : Lexeme} (found : ofQuoted cs = .ok x) :
    x.spelling ++ x.rest = '"' :: cs := by
  have whole := List.takeWhile_append_dropWhile (p := (· ≠ '"')) (l := cs)
  unfold ofQuoted at found
  simp only at found
  split at found
  · cases found
  · rename_i close rest left
    cases found
    rw [left] at whole
    simpa using congrArg ('"' :: ·) whole

theorem ofTimes_append {cs : List Char} {x : Lexeme} (found : ofTimes cs = .ok x) :
    x.spelling ++ x.rest = '*' :: cs := by
  unfold ofTimes at found
  simp only at found
  split at found
  · cases found
    exact congrArg ('*' :: ·) List.takeWhile_append_dropWhile
  · cases found

theorem drop_length_takeWhile (p : Char → Bool) (cs : List Char) :
    cs.drop (cs.takeWhile p).length = cs.dropWhile p := by
  induction cs with
  | nil => rfl
  | cons c cs ih => by_cases kind : p c = true <;> simp [kind, ih]

theorem decimals_of_ne {point : Char} (tail : List Char) (other : point ≠ '.') :
    decimals (point :: tail) = [] := by
  unfold decimals
  split
  · rename_i same
    cases same
    exact absurd rfl other
  · rfl

theorem ofNumber_append (cs : List Char) :
    (ofNumber cs).spelling ++ (ofNumber cs).rest = cs := by
  have whole := List.takeWhile_append_dropWhile (p := Char.isDigit) (l := cs)
  unfold ofNumber
  simp only
  split
  · exact whole
  · rename_i places
    cases left : cs.dropWhile Char.isDigit with
    | nil =>
        rw [left] at places
        exact absurd rfl places
    | cons point tail =>
        rw [left] at whole
        by_cases dot : point = '.'
        · subst dot
          have split := List.takeWhile_append_dropWhile (p := Char.isDigit) (l := tail)
          simp only [decimals, List.drop_succ_cons, drop_length_takeWhile, List.append_assoc,
            List.cons_append, split, whole]
        · rw [left, decimals_of_ne tail dot] at places
          exact absurd rfl places

theorem ofWord_append {cs : List Char} {x : Lexeme} (found : ofWord cs = .ok x) :
    x.spelling ++ x.rest = cs := by
  have whole := List.takeWhile_append_dropWhile (p := Word.isWordChar) (l := cs)
  unfold ofWord at found
  simp only at found
  split at found
  · rename_i n tail voice left
    cases found
    rw [left] at whole
    simpa using whole
  · cases classified : Word.classify (cs.takeWhile Word.isWordChar) with
    | error fault =>
        rw [classified] at found
        cases found
    | ok token =>
        rw [classified] at found
        cases found
        exact whole

/-- A lexeme is a beginning of the text, and what is left is the rest of it. -/
theorem spelling_append_rest {c : Char} {cs : List Char} {x : Lexeme}
    (found : ofChars c cs = .ok x) : x.spelling ++ x.rest = c :: cs := by
  unfold ofChars at found
  split at found
  case h_10 => exact ofQuoted_append found
  case h_11 => exact ofTimes_append found
  case h_12 =>
    split at found
    · cases found
      exact ofNumber_append _
    · split at found
      · exact ofWord_append found
      · cases found
  all_goals
    cases found
    rfl

theorem spelling_ofNumber_ne_nil {c : Char} (cs : List Char) (digit : c.isDigit = true) :
    (ofNumber (c :: cs)).spelling ≠ [] := by
  have whole : (c :: cs).takeWhile Char.isDigit ≠ [] := by
    simp only [List.takeWhile_cons, digit, ↓reduceIte]
    exact List.cons_ne_nil _ _
  unfold ofNumber
  simp only
  split
  · exact whole
  · exact List.append_ne_nil_of_left_ne_nil whole _

theorem spelling_ofWord_ne_nil {c : Char} {cs : List Char} {x : Lexeme} (alpha : c.isAlpha = true)
    (read : ofWord (c :: cs) = .ok x) : x.spelling ≠ [] := by
  have word : (c :: cs).takeWhile Word.isWordChar ≠ [] := by
    simp only [List.takeWhile_cons, isWordChar_of_isAlpha alpha, ↓reduceIte]
    exact List.cons_ne_nil _ _
  unfold ofWord at read
  simp only at read
  split at read
  · cases read
    exact List.append_ne_nil_of_left_ne_nil word _
  · cases classified : Word.classify ((c :: cs).takeWhile Word.isWordChar) with
    | error fault =>
        rw [classified] at read
        cases read
    | ok token =>
        rw [classified] at read
        cases read
        exact word

/-- A lexeme takes at least one character. -/
theorem spelling_ne_nil {c : Char} {cs : List Char} {x : Lexeme} (read : ofChars c cs = .ok x) :
    x.spelling ≠ [] := by
  unfold ofChars at read
  split at read
  case h_10 =>
    unfold ofQuoted at read
    simp only at read
    split at read
    · cases read
    · cases read
      exact List.cons_ne_nil _ _
  case h_11 =>
    unfold ofTimes at read
    simp only at read
    split at read
    · cases read
      exact List.cons_ne_nil _ _
    · cases read
  case h_12 =>
    split at read
    · rename_i digit
      cases read
      exact spelling_ofNumber_ne_nil cs digit
    · split at read
      · rename_i alpha
        exact spelling_ofWord_ne_nil alpha read
      · cases read
  all_goals
    cases read
    exact List.cons_ne_nil _ _

/-- A lexeme starts with the first character of the text. -/
theorem exists_spelling {c : Char} {cs : List Char} {x : Lexeme} (found : ofChars c cs = .ok x) :
    ∃ spelling, x.spelling = c :: spelling ∧ cs = spelling ++ x.rest := by
  have whole := spelling_append_rest found
  obtain ⟨d, spelling, spelt⟩ := List.exists_cons_of_ne_nil (spelling_ne_nil found)
  rw [spelt, List.cons_append] at whole
  obtain ⟨rfl, rest⟩ := List.cons.inj whole
  exact ⟨spelling, spelt, rest.symm⟩

/-- What goes on with no lexeme: it starts neither with a character of words nor with a colon. -/
def Apart (more : List Char) : Prop := ∀ c ∈ more.head?, Word.isWordChar c = false ∧ c ≠ ':'

/-- A run of characters of one kind ends where it did if what follows does not go on with it. -/
theorem span_append {p : Char → Bool} (cs : List Char) {more : List Char}
    (ends : cs.dropWhile p ≠ [] ∨ ∀ c ∈ more.head?, p c = false) :
    (cs ++ more).takeWhile p = cs.takeWhile p ∧
      (cs ++ more).dropWhile p = cs.dropWhile p ++ more := by
  induction cs with
  | nil =>
      have stops := ends.resolve_left (fun left => left rfl)
      cases more with
      | nil => exact ⟨rfl, rfl⟩
      | cons c more => simp [stops c rfl]
  | cons c cs ih =>
      by_cases kind : p c = true
      · simp only [List.dropWhile_cons, kind, ↓reduceIte] at ends
        simp [kind, ih ends]
      · simp [kind]

theorem length_decimals {cs : List Char} (places : decimals cs ≠ []) :
    (decimals cs).length + 1 ≤ cs.length := by
  cases cs with
  | nil => exact absurd rfl places
  | cons point tail =>
      by_cases dot : point = '.'
      · subst dot
        exact Nat.succ_le_succ (List.takeWhile_prefix Char.isDigit).length_le
      · exact absurd (decimals_of_ne tail dot) places

/-- A closed quotation needs nothing to end it. -/
theorem ofQuoted_append_more {cs more : List Char} {x : Lexeme} (found : ofQuoted cs = .ok x) :
    ofQuoted (cs ++ more) = .ok { x with rest := x.rest ++ more } := by
  unfold ofQuoted at found ⊢
  simp only at found ⊢
  split at found
  · cases found
  · rename_i close rest left
    have closed : cs.dropWhile (· ≠ '"') ≠ [] := by
      rw [left]
      exact List.cons_ne_nil _ _
    obtain ⟨inner, after⟩ := @span_append _ cs more (Or.inl closed)
    cases found
    simp only [inner, after, left, List.cons_append]

section Append

variable {more : List Char} (apart : Apart more)
include apart

theorem Apart.isWordChar : ∀ c ∈ more.head?, Word.isWordChar c = false :=
  fun c first => (apart c first).1

theorem Apart.isDigit : ∀ c ∈ more.head?, c.isDigit = false := by
  intro c first
  rw [Bool.eq_false_iff]
  intro digit
  have other := (apart c first).1
  simp [Word.isWordChar, Char.isAlphanum, digit] at other

theorem Apart.head_ne {c : Char} {tail : List Char} (starts : more = c :: tail) :
    c ≠ '.' ∧ c ≠ ':' := by
  subst starts
  obtain ⟨other, colon⟩ := apart c rfl
  refine ⟨?_, colon⟩
  rintro rfl
  cases other

theorem decimals_append (cs : List Char) : decimals (cs ++ more) = decimals cs := by
  cases cs with
  | nil =>
      cases more with
      | nil => rfl
      | cons c more => exact decimals_of_ne more (apart.head_ne rfl).1
  | cons c cs =>
      by_cases point : c = '.'
      · subst point
        exact (span_append cs (Or.inr apart.isDigit)).1
      · rw [List.cons_append, decimals_of_ne _ point, decimals_of_ne _ point]

theorem ofNumber_append_apart (cs : List Char) :
    ofNumber (cs ++ more) = { ofNumber cs with rest := (ofNumber cs).rest ++ more } := by
  obtain ⟨whole, tail⟩ := span_append cs (Or.inr apart.isDigit)
  unfold ofNumber
  simp only [whole, tail, decimals_append apart]
  split
  · rfl
  · rename_i places
    have fits := length_decimals (by simpa using places)
    rw [List.drop_append_of_le_length fits]

theorem ofWord_append_apart {cs : List Char} {x : Lexeme} (found : ofWord cs = .ok x) :
    ofWord (cs ++ more) = .ok { x with rest := x.rest ++ more } := by
  obtain ⟨word, after⟩ := span_append cs (Or.inr apart.isWordChar)
  unfold ofWord at found ⊢
  simp only [word, after] at found ⊢
  split at found
  · rename_i n tail voice colon
    cases found
    simp only [voice, colon, List.cons_append]
  · rename_i other
    split
    · rename_i n tail voice colon
      cases left : cs.dropWhile Word.isWordChar with
      | nil =>
          rw [left, List.nil_append] at colon
          exact absurd rfl (apart.head_ne colon).2
      | cons c rest =>
          rw [left, List.cons_append] at colon
          rw [(List.cons.inj colon).1] at left
          exact absurd left (other n rest voice)
    · cases classified : Word.classify (cs.takeWhile Word.isWordChar) with
      | error fault =>
          rw [classified] at found
          cases found
      | ok token =>
          rw [classified] at found
          cases found
          rfl

theorem ofTimes_append_apart {cs : List Char} {x : Lexeme} (found : ofTimes cs = .ok x) :
    ofTimes (cs ++ more) = .ok { x with rest := x.rest ++ more } := by
  obtain ⟨digits, after⟩ := span_append cs (Or.inr apart.isDigit)
  unfold ofTimes at found ⊢
  simp only [digits, after] at found ⊢
  split at found
  · rename_i n count
    cases found
    rfl
  · cases found

/-- A lexeme is the same whatever follows the text, if that is apart from it. -/
theorem ofChars_append {c : Char} {cs : List Char} {x : Lexeme} (found : ofChars c cs = .ok x) :
    ofChars c (cs ++ more) = .ok { x with rest := x.rest ++ more } := by
  unfold ofChars at found ⊢
  split at found
  case h_10 => exact ofQuoted_append_more found
  case h_11 => exact ofTimes_append_apart apart found
  case h_12 =>
    split at found
    · rename_i digit
      cases found
      simp only [*, ↓reduceIte]
      exact congrArg _ (ofNumber_append_apart apart (c :: cs))
    · split at found
      · rename_i digit letter
        simp only [*, ↓reduceIte]
        exact ofWord_append_apart apart found
      · cases found
  all_goals
    cases found
    rfl

end Append

end Lexeme

namespace TokenLine

/-- A gap that ends in the text ends there whatever follows. -/
theorem gap_append_of_left {b : Bool} {cs : List Char} {c : Char} {tail : List Char}
    (left : (gap b cs).2 = c :: tail) (more : List Char) :
    gap b (cs ++ more) = ((gap b cs).1, c :: tail ++ more) := by
  induction cs generalizing b with
  | nil => cases left
  | cons d cs ih =>
      unfold gap at left
      rw [List.cons_append, gap, gap]
      split at left
      · rename_i inside
        rw [if_pos inside, if_pos inside, ih left]
      · rename_i outside
        rw [if_neg outside, if_neg outside]
        split at left
        · rename_i skipped
          rw [if_pos skipped, if_pos skipped, ih left]
        · rename_i solid
          cases left
          rw [if_neg solid, if_neg solid, List.cons_append]

/-- The rest of a text that is nothing but a gap is one with what follows in the next line. -/
theorem gap_append_newline {b : Bool} {cs : List Char} (ended : (gap b cs).2 = [])
    (more : List Char) :
    gap b (cs ++ '\n' :: more) = (cs ++ '\n' :: (gap false more).1, (gap false more).2) := by
  induction cs generalizing b with
  | nil => cases b <;> rfl
  | cons d cs ih =>
      unfold gap at ended
      rw [List.cons_append, gap]
      split at ended
      · rename_i inside
        rw [if_pos inside, ih ended]
        rfl
      · rename_i outside
        rw [if_neg outside]
        split at ended
        · rename_i skipped
          rw [if_pos skipped, ih ended]
          rfl
        · cases ended

theorem gap_of_ended {b : Bool} {cs : List Char} (ended : (gap b cs).2 = []) :
    (gap b cs).1 = cs := by
  have whole := gap_append b cs
  rwa [ended, List.append_nil] at whole

section Equations

variable {p : Position} {cs : List Char}

/-- A text with no token in it. -/
theorem ofCharsAt_of_ended (ended : (gap false cs).2 = []) :
    ofCharsAt p cs = .ok ⟨[], p.after cs⟩ := by
  rw [ofCharsAt, gap_of_ended ended]
  split
  · rfl
  · rename_i left
    rw [ended] at left
    cases left

variable {c : Char} {tail : List Char} (left : (gap false cs).2 = c :: tail)
include left

theorem ofCharsAt_of_fault {fault : LexicalFault} (failed : Lexeme.ofChars c tail = .error fault) :
    ofCharsAt p cs = .error ⟨.lexical fault, p.after (gap false cs).1⟩ := by
  rw [ofCharsAt]
  split
  · rename_i ended
    rw [ended] at left
    cases left
  · rename_i same
    rw [left] at same
    cases same
    split
    · rename_i other
      rw [failed] at other
      cases other
      rfl
    · rename_i found
      rw [failed] at found
      cases found

/-- The tokens of a text are its first and those of the rest. -/
theorem ofCharsAt_of_lexeme {x : Lexeme} (found : Lexeme.ofChars c tail = .ok x) :
    ofCharsAt p cs =
      (ofCharsAt ((p.after (gap false cs).1).after x.spelling) x.rest).map fun line =>
        ⟨⟨x.token, p.after (gap false cs).1⟩ :: line.tokens, line.finish⟩ := by
  rw [ofCharsAt]
  split
  · rename_i ended
    rw [ended] at left
    cases left
  · rename_i same
    rw [left] at same
    cases same
    split
    · rename_i failed
      rw [found] at failed
      cases failed
    · rename_i y other
      rw [found] at other
      cases other
      split <;> rename_i later <;> rw [later] <;> rfl

section Pieces

variable {x : Lexeme} (found : Lexeme.ofChars c tail = .ok x)
include found

/-- A text with a lexeme is its gap, the lexeme and the rest. -/
theorem gap_spelling_rest : (gap false cs).1 ++ (x.spelling ++ x.rest) = cs := by
  rw [Lexeme.spelling_append_rest found, ← left, gap_append]

theorem after_gap_spelling :
    ((p.after (gap false cs).1).after x.spelling).after x.rest = p.after cs := by
  rw [← Position.after_append, ← Position.after_append, gap_spelling_rest left found]

theorem exists_later {line : TokenLine} (read : ofCharsAt p cs = .ok line) :
    ∃ later, ofCharsAt ((p.after (gap false cs).1).after x.spelling) x.rest = .ok later ∧
      line = ⟨⟨x.token, p.after (gap false cs).1⟩ :: later.tokens, later.finish⟩ := by
  rw [ofCharsAt_of_lexeme left found] at read
  cases rest : ofCharsAt ((p.after (gap false cs).1).after x.spelling) x.rest with
  | error e =>
      rw [rest] at read
      cases read
  | ok later =>
      rw [rest] at read
      cases read
      exact ⟨later, rfl, rfl⟩

end Pieces

end Equations

/-- A text is silent, or it starts with no lexeme, or with one that leaves a text. -/
theorem text_induction {motive : List Char → Prop}
    (ended : ∀ cs, (gap false cs).2 = [] → motive cs)
    (fault : ∀ cs c tail fault, (gap false cs).2 = c :: tail →
      Lexeme.ofChars c tail = .error fault → motive cs)
    (lexeme : ∀ cs c tail x, (gap false cs).2 = c :: tail → Lexeme.ofChars c tail = .ok x →
      motive x.rest → motive cs)
    (cs : List Char) : motive cs := by
  -- On what is left of the text, of which every lexeme takes at least one character.
  induction length : cs.length using Nat.strongRecOn generalizing cs with
  | ind n ih =>
      cases left : (gap false cs).2 with
      | nil => exact ended cs left
      | cons c tail =>
          cases found : Lexeme.ofChars c tail with
          | error e => exact fault cs c tail e left found
          | ok x =>
              have taken := Lexeme.length_rest_le found
              have bound := length_gap_le false cs
              rw [left, List.length_cons] at bound
              exact lexeme cs c tail x left found (ih x.rest.length (by omega) x.rest rfl)

/-- A text whose gap goes on with that of another one has its tokens. -/
theorem ofCharsAt_of_gap {cs before ds : List Char} (p : Position)
    (leads : gap false cs = (before ++ (gap false ds).1, (gap false ds).2)) :
    ofCharsAt p cs = ofCharsAt (p.after before) ds := by
  obtain ⟨start, rest⟩ := Prod.mk.inj leads
  cases left : (gap false ds).2 with
  | nil =>
      have whole := gap_append false cs
      rw [start, rest, left, gap_of_ended left, List.append_nil] at whole
      rw [ofCharsAt_of_ended (rest.trans left), ofCharsAt_of_ended left, ← whole,
        Position.after_append]
  | cons c tail =>
      cases found : Lexeme.ofChars c tail with
      | error fault =>
          rw [ofCharsAt_of_fault (rest.trans left) found, ofCharsAt_of_fault left found, start,
            Position.after_append]
      | ok x =>
          rw [ofCharsAt_of_lexeme (rest.trans left) found, ofCharsAt_of_lexeme left found, start,
            Position.after_append]

end TokenLine

end Songline
