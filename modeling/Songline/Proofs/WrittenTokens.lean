import Songline.Proofs.WordReadings

set_option autoImplicit false

namespace Songline

def NoteValue.spelling (v : NoteValue) : List Char :=
  Count.digits v.denominator ++ List.replicate v.dots '.'

def Length.spelling (l : Length) : List Char :=
  ['~'].intercalate (l.values.map NoteValue.spelling)

def Note.signs (n : Note) : List Char :=
  List.replicate n.accidentals.natAbs (if n.accidentals < 0 then '-' else '+')

namespace Token

/-- The characters that a token is written with, unless it is a number. -/
def spelling : Token → List Char
  | note n => n.letter :: (n.signs ++ (n.length.map Length.spelling).getD [])
  | rest l => 'r' :: (l.map Length.spelling).getD []
  | octave n => 'o' :: Count.digits n
  | octaveUp => ['>']
  | octaveDown => ['<']
  | voice n => 'V' :: Count.digits n ++ [':']
  | barline => ['|']
  | times n => '*' :: Count.digits n
  | name s => s.toList
  | quoted s => '"' :: s.toList ++ ['"']
  | number _ => []
  | openParen => ['(']
  | closeParen => [')']
  | openBracket => ['[']
  | closeBracket => [']']
  | slash => ['/']
  | colon => [':']

def write (tokens : List Token) : String :=
  String.ofList ([' '].intercalate (tokens.map spelling))

/-- Tokens that are written as they are read. A note has a letter and accidentals within the limit,
a length some values, a name the characters of a word that is read as one, and a quotation no
quotation mark in it. -/
def Writable : Token → Prop
  | note n =>
    Word.isNoteLetter n.letter = true ∧ n.accidentals.natAbs ≤ maxAccidentals ∧
      ∀ l ∈ n.length, l.values ≠ []
  | rest length => ∀ l ∈ length, l.values ≠ []
  | name s =>
    (∃ c ∈ s.toList.head?, c.isAlpha = true) ∧ (∀ c ∈ s.toList, Word.isWordChar c = true) ∧
      Word.classify s.toList = .ok (.name s)
  | quoted s => '"' ∉ s.toList
  | number _ => False
  | _ => True

end Token

namespace Word

theorem spellsNumber_digits (n : UInt32) : SpellsNumber (Count.digits n) n.toNat :=
  ofDigits?_eq_some_iff.mp (Count.ofDigits?_digits n)

theorem spellsLength_spelling {l : Length} (nonempty : l.values ≠ []) :
    SpellsLength l.spelling l := by
  refine ⟨l.values.map NoteValue.spelling, by simpa using nonempty, ?_, rfl⟩
  rw [List.forall₂_map_left_iff, List.forall₂_same]
  exact fun v _ => ⟨Count.digits v.denominator, spellsNumber_digits v.denominator, rfl⟩

theorem spellsOptional_spelling {length : Option Length} (nonempty : ∀ l ∈ length, l.values ≠ []) :
    SpellsOptional ((length.map Length.spelling).getD []) length := by
  cases length with
  | none => exact .nothing
  | some l => exact .length (spellsLength_spelling (nonempty l rfl))

/-- Sharps or flats, by the sign of a number. -/
theorem bend_replicate (k : Nat) (i : Int) :
    bend (List.replicate k (if i < 0 then '-' else '+')) = if i < 0 then -(k : Int) else k := by
  by_cases flat : i < 0
  · simp [bend, List.count_replicate, flat]
  · simp [bend, List.count_replicate, flat]

theorem spellsNote_spelling {n : Note} (writable : (Token.note n).Writable) :
    SpellsNote (Token.note n).spelling n := by
  obtain ⟨letter, limited, length⟩ := writable
  refine ⟨n.signs, _, rfl, letter, ?_, ?_, ?_, spellsOptional_spelling length⟩
  · intro c sign
    rw [List.eq_of_mem_replicate sign]
    split <;> rfl
  · intro before begins
    obtain ⟨fewer, same⟩ := List.prefix_replicate_iff.mp begins
    rw [same, bend_replicate]
    split <;> omega
  · rw [Note.signs, bend_replicate]
    split <;> omega

theorem forall_mem_intercalate {p : Char → Prop} {between : List Char} {items : List (List Char)}
    (outside : ∀ c ∈ between, p c) (inside : ∀ item ∈ items, ∀ c ∈ item, p c) :
    ∀ c ∈ between.intercalate items, p c := by
  induction items with
  | nil => exact List.forall_mem_nil _
  | cons item items ih =>
      obtain ⟨first, others⟩ := List.forall_mem_cons.mp inside
      cases items with
      | nil =>
          rw [List.intercalate_singleton]
          exact first
      | cons next items =>
          rw [List.intercalate_cons_cons]
          exact List.forall_mem_append.mpr ⟨List.forall_mem_append.mpr ⟨first, outside⟩, ih others⟩

theorem isWordChar_digits (n : UInt32) : ∀ c ∈ Count.digits n, isWordChar c = true := by
  intro c digit
  simp [isWordChar, Char.isAlphanum, Count.isDigit_of_mem_digits digit]

/-- A length goes on with the word that it ends. -/
theorem isWordChar_length (length : Option Length) :
    ∀ c ∈ (length.map Length.spelling).getD [], isWordChar c = true := by
  cases length with
  | none => exact List.forall_mem_nil _
  | some l =>
      refine forall_mem_intercalate (by simp [isWordChar]) ?_
      intro item member
      obtain ⟨v, -, rfl⟩ := List.mem_map.mp member
      refine List.forall_mem_append.mpr ⟨isWordChar_digits v.denominator, ?_⟩
      intro c dot
      rw [List.eq_of_mem_replicate dot]
      rfl

end Word

namespace Token

/-- A token is written as one lexeme that leaves nothing, and does not start like a gap. -/
structure WrittenAs (t : Token) (c : Char) (tail : List Char) : Prop where
  spelt : t.spelling = c :: tail
  read : Lexeme.ofChars c tail = .ok ⟨t, c :: tail, []⟩
  solid : Text.isBlank c = false ∧ c ≠ '#'

/-- No gap starts with a letter. -/
theorem solid_of_isAlpha {c : Char} (letter : c.isAlpha = true) :
    Text.isBlank c = false ∧ c ≠ '#' := by
  constructor
  · rw [Word.isAlpha_iff] at letter
    simp only [Text.isBlank, Text.blankRanges, List.any_cons, List.any_nil, Bool.or_false,
      Bool.or_eq_false_iff, Bool.and_eq_false_iff, decide_eq_false_iff_not]
    omega
  · rintro rfl
    cases letter

/-- Words are written like that. -/
theorem WrittenAs.word {t : Token} {c : Char} {tail : List Char} (spelt : t.spelling = c :: tail)
    (letter : c.isAlpha = true) (inside : ∀ d ∈ tail, Word.isWordChar d = true)
    (classified : Word.classify (c :: tail) = .ok t) : t.WrittenAs c tail := by
  have whole : ∀ d ∈ c :: tail, Word.isWordChar d = true :=
    List.forall_mem_cons.mpr ⟨Lexeme.isWordChar_of_isAlpha letter, inside⟩
  have word : (c :: tail).takeWhile Word.isWordChar = c :: tail :=
    List.takeWhile_eq_self_iff.mpr whole
  have after : (c :: tail).dropWhile Word.isWordChar = [] := List.dropWhile_eq_nil_iff.mpr whole
  refine ⟨spelt, ?_, solid_of_isAlpha letter⟩
  rw [Lexeme.ofChars_of_isAlpha tail letter]
  rcases Lexeme.ofWord_cases (c :: tail) with ⟨n, rest, -, behind, -⟩ | ⟨-, read⟩
  · rw [after] at behind
    cases behind
  · rw [read, word, after, classified]
    rfl

theorem isAlpha_of_isNoteLetter {c : Char} (letter : Word.isNoteLetter c = true) :
    c.isAlpha = true := by
  simp only [Word.isNoteLetter, Bool.and_eq_true, decide_eq_true_eq] at letter
  have bounds : 97 ≤ c.toNat ∧ c.toNat ≤ 103 := letter
  rw [Word.isAlpha_iff]
  omega

theorem WrittenAs.note {n : Note} (writable : (note n).Writable) :
    (Token.note n).WrittenAs n.letter (n.signs ++ (n.length.map Length.spelling).getD []) := by
  refine .word rfl (isAlpha_of_isNoteLetter writable.1) ?_
    (Word.Musical.note (Word.spellsNote_spelling writable)).classify
  · refine List.forall_mem_append.mpr ⟨?_, Word.isWordChar_length n.length⟩
    intro c sign
    rw [List.eq_of_mem_replicate sign]
    split <;> rfl

/-- A voice takes its colon. -/
theorem WrittenAs.voice (n : UInt32) :
    (voice n).WrittenAs 'V' (Count.digits n ++ [':']) := by
  have whole : ∀ d ∈ 'V' :: Count.digits n, Word.isWordChar d = true :=
    List.forall_mem_cons.mpr ⟨rfl, Word.isWordChar_digits n⟩
  have colon : ∀ d ∈ [':'].head?, Word.isWordChar d = false := by
    rintro d ⟨⟩
    rfl
  obtain ⟨word, after⟩ := Word.span_of_all whole colon
  have spelt : Word.voice? ('V' :: Count.digits n) = some n :=
    Word.voice?_eq_some_iff.mpr ⟨_, rfl, Word.spellsNumber_digits n⟩
  refine ⟨rfl, ?_, solid_of_isAlpha rfl⟩
  rw [Lexeme.ofChars_of_isAlpha _ rfl, ← List.cons_append, Lexeme.ofWord, word, after, spelt]
  rfl

theorem WrittenAs.times (n : UInt32) : (times n).WrittenAs '*' (Count.digits n) := by
  have digits : ∀ d ∈ Count.digits n, d.isDigit = true := fun d => Count.isDigit_of_mem_digits
  have whole : (Count.digits n).takeWhile Char.isDigit = Count.digits n :=
    List.takeWhile_eq_self_iff.mpr digits
  have after : (Count.digits n).dropWhile Char.isDigit = [] := List.dropWhile_eq_nil_iff.mpr digits
  refine ⟨rfl, ?_, by decide⟩
  change Lexeme.ofTimes (Count.digits n) = _
  rw [Lexeme.ofTimes, whole, after, Count.ofDigits?_digits]

theorem WrittenAs.quoted {s : String} (closed : '"' ∉ s.toList) :
    (quoted s).WrittenAs '"' (s.toList ++ ['"']) := by
  have inner : ∀ c ∈ s.toList, decide (c ≠ '"') = true := by
    intro c member
    rw [decide_eq_true_iff]
    rintro rfl
    exact closed member
  obtain ⟨inside, after⟩ := @Word.span_of_all _ _ ['"'] inner (by simp)
  refine ⟨rfl, ?_, by decide⟩
  change Lexeme.ofQuoted (s.toList ++ ['"']) = _
  rw [Lexeme.ofQuoted, inside, after, String.ofList_toList]
  rfl

theorem WrittenAs.name {s : String} (writable : (name s).Writable) :
    ∃ c tail, (name s).WrittenAs c tail := by
  obtain ⟨⟨c, first, letter⟩, inside, classified⟩ := writable
  obtain ⟨tail, spelt⟩ := List.head?_eq_some_iff.mp first
  rw [spelt] at inside classified
  exact ⟨c, tail, .word spelt letter (List.forall_mem_cons.mp inside).2 classified⟩

theorem exists_writtenAs {t : Token} (writable : t.Writable) : ∃ c tail, t.WrittenAs c tail := by
  cases t with
  | note n => exact ⟨_, _, .note writable⟩
  | rest length =>
      have spelt : Word.SpellsRest (rest length).spelling length :=
        ⟨_, rfl, Word.spellsOptional_spelling writable⟩
      exact ⟨_, _, .word rfl rfl (Word.isWordChar_length length) (Word.Musical.rest spelt).classify⟩
  | octave n =>
      have spelt : Word.SpellsOctave (octave n).spelling n.toNat :=
        ⟨_, rfl, Word.spellsNumber_digits n⟩
      exact ⟨_, _, .word rfl rfl (Word.isWordChar_digits n) (Word.Musical.octave spelt).classify⟩
  | voice n => exact ⟨_, _, .voice n⟩
  | times n => exact ⟨_, _, .times n⟩
  | name s => exact WrittenAs.name writable
  | quoted s => exact ⟨_, _, .quoted writable⟩
  | number value => exact absurd writable id
  | octaveUp | octaveDown | barline | openParen | closeParen | openBracket | closeBracket | slash
  | colon => exact ⟨_, _, rfl, rfl, by decide⟩

end Token

namespace TokenLine

/-- A written token is the first of a text that goes on apart from it. -/
theorem ofCharsAt_of_written {t : Token} {c : Char} {tail more : List Char} (p : Position)
    (written : t.WrittenAs c tail) (apart : Lexeme.Apart more) :
    ofCharsAt p (c :: tail ++ more) =
      (ofCharsAt (p.after (c :: tail)) more).map fun line =>
        ⟨⟨t, p⟩ :: line.tokens, line.finish⟩ := by
  obtain ⟨-, read, blank, comment⟩ := written
  have solid : gap false (c :: tail ++ more) = ([], c :: tail ++ more) := by
    simp [gap, blank, comment]
  have left : (gap false (c :: tail ++ more)).2 = c :: (tail ++ more) := by rw [solid]; rfl
  rw [ofCharsAt_of_lexeme left (Lexeme.ofChars_append apart read), solid]
  rfl

/-- A blank in front of a text is part of its first gap. -/
theorem ofCharsAt_blank (p : Position) (cs : List Char) :
    ofCharsAt p (' ' :: cs) = ofCharsAt (p.next ' ') cs := by
  have leads : gap false (' ' :: cs) = ([' '] ++ (gap false cs).1, (gap false cs).2) := rfl
  exact ofCharsAt_of_gap p leads

/-- From any place, the text of some tokens has these. -/
theorem exists_line_of_writable {tokens : List Token} (writable : ∀ t ∈ tokens, t.Writable)
    (p : Position) :
    ∃ line, ofCharsAt p ([' '].intercalate (tokens.map Token.spelling)) = .ok line ∧
      line.tokens.map (·.token) = tokens := by
  induction tokens generalizing p with
  | nil => exact ⟨_, ofCharsAt_of_ended rfl, rfl⟩
  | cons t tokens ih =>
      obtain ⟨first, others⟩ := List.forall_mem_cons.mp writable
      obtain ⟨c, tail, written⟩ := Token.exists_writtenAs first
      cases tokens with
      | nil =>
          have text : [' '].intercalate ([t].map Token.spelling) = c :: tail ++ [] := by
            rw [List.map_singleton, List.intercalate_singleton, written.spelt, List.append_nil]
          rw [text, ofCharsAt_of_written p written (fun _ first => by cases first),
            ofCharsAt_of_ended rfl]
          exact ⟨_, rfl, rfl⟩
      | cons next tokens =>
          have apart (cs : List Char) : Lexeme.Apart (' ' :: cs) := by
            rintro d ⟨⟩
            decide
          rw [List.map_cons, List.map_cons, List.intercalate_cons_cons, ← List.map_cons,
            written.spelt, List.append_assoc, List.singleton_append,
            ofCharsAt_of_written p written (apart _), ofCharsAt_blank]
          obtain ⟨line, read, same⟩ := ih others ((p.after (c :: tail)).next ' ')
          rw [read]
          exact ⟨_, rfl, congrArg (t :: ·) same⟩

/-- Reading undoes writing: the text of any tokens without a number is read as these and no
others. -/
theorem tokens_written_read {tokens : List Token} (writable : ∀ t ∈ tokens, t.Writable) :
    ∃ line, ofString (Token.write tokens) = .ok line ∧ line.tokens.map (·.token) = tokens := by
  obtain ⟨line, read, same⟩ := exists_line_of_writable writable .start
  refine ⟨line, ?_, same⟩
  rw [ofString, Token.write, String.toList_ofList]
  exact read

/-- A phrase with a voice, and a name that is one but for the blank in front of its colon. -/
theorem phrase_written_read :
    let phrase : List Token :=
      [.name "acoustic-bass", .quoted "low one", .name "V1", .colon, .voice 1, .octave 4,
        .note ⟨'b', -2, some ⟨[⟨4, 1⟩, ⟨8, 0⟩]⟩⟩, .rest none, .octaveDown, .barline, .openBracket,
        .note ⟨'c', 1, none⟩, .closeBracket, .times 2]
    (∀ t ∈ phrase, t.Writable) ∧
      ∃ line, ofString "acoustic-bass \"low one\" V1 : V1: o4 b--4.~8 r < | [ c+ ] *2" = .ok line ∧
        line.tokens.map (·.token) = phrase := by
  intro phrase
  have bass : (Token.name "acoustic-bass").Writable :=
    ⟨⟨'a', rfl, rfl⟩, List.all_eq_true.mp rfl, rfl⟩
  have voiceless : (Token.name "V1").Writable := ⟨⟨'V', rfl, rfl⟩, List.all_eq_true.mp rfl, rfl⟩
  have writable : ∀ t ∈ phrase, t.Writable := by
    simp only [phrase, List.forall_mem_cons, bass, voiceless, true_and]
    simp [Token.Writable, Word.isNoteLetter, maxAccidentals]
  have written : Token.write phrase =
      "acoustic-bass \"low one\" V1 : V1: o4 b--4.~8 r < | [ c+ ] *2" := by
    decide
  rw [← written]
  exact ⟨writable, tokens_written_read writable⟩

end TokenLine

end Songline
