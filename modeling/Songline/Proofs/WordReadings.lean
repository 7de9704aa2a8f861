import Mathlib.Algebra.Ring.Int.Defs
import Mathlib.Data.List.Forall2
import Mathlib.Data.List.TakeWhile
import Songline.Proofs.Lexemes
import Songline.Proofs.TextLines

set_option autoImplicit false

namespace Songline.Word

/-- Digits, at least one, that spell a number in decimal. -/
structure SpellsNumber (ds : List Char) (n : Nat) : Prop where
  nonempty : ds ≠ []
  digits : ∀ d ∈ ds, d.isDigit = true
  value : Nat.ofDigitChars 10 ds 0 = n

/-- A number, and a point for each dot. -/
def SpellsValue (cs : List Char) (v : NoteValue) : Prop :=
  ∃ ds, SpellsNumber ds v.denominator.toNat ∧ cs = ds ++ List.replicate v.dots '.'

/-- Note values, at least one, with ties between them. -/
def SpellsLength (cs : List Char) (l : Length) : Prop :=
  ∃ items, items ≠ [] ∧ List.Forall₂ SpellsValue items l.values ∧ cs = ['~'].intercalate items

/-- A length that may be left out. -/
inductive SpellsOptional : List Char → Option Length → Prop
  | nothing : SpellsOptional [] none
  | length {cs : List Char} {l : Length} (spelt : SpellsLength cs l) : SpellsOptional cs (some l)

def isAccidental (c : Char) : Bool := c = '+' || c = '-' || c = '_'

/-- The sum of accidentals: a sharp counts 1, a flat -1 and a natural 0. -/
def bend (signs : List Char) : Int := signs.count '+' - signs.count '-'

/-- A letter, accidentals whose sum is within the limit all the time, and a length. -/
def SpellsNote (word : List Char) (n : Note) : Prop :=
  ∃ signs suffix, word = n.letter :: (signs ++ suffix) ∧ isNoteLetter n.letter = true ∧
    (∀ c ∈ signs, isAccidental c = true) ∧
    (∀ before, before <+: signs → (bend before).natAbs ≤ maxAccidentals) ∧
    bend signs = n.accidentals ∧ SpellsOptional suffix n.length

/-- A letter and accidentals whose sum passes the limit, and whatever follows them. -/
def TooBent (word : List Char) : Prop :=
  ∃ letter signs suffix, word = letter :: (signs ++ suffix) ∧ isNoteLetter letter = true ∧
    (∀ c ∈ signs, isAccidental c = true) ∧ maxAccidentals < (bend signs).natAbs

def SpellsRest (word : List Char) (l : Option Length) : Prop :=
  ∃ suffix, word = 'r' :: suffix ∧ SpellsOptional suffix l

/-- The number of an octave, of any size. -/
def SpellsOctave (word : List Char) (n : Nat) : Prop :=
  ∃ ds, word = 'o' :: ds ∧ SpellsNumber ds n

def SpellsVoice (word : List Char) (n : UInt32) : Prop :=
  ∃ ds, word = 'V' :: ds ∧ SpellsNumber ds n.toNat

/-- What a word is as music. -/
inductive Musical (word : List Char) : Except LexicalFault Token → Prop
  | note {n : Note} (spelt : SpellsNote word n) : Musical word (.ok (.note n))
  | rest {l : Option Length} (spelt : SpellsRest word l) : Musical word (.ok (.rest l))
  | octave {n : UInt32} (spelt : SpellsOctave word n.toNat) : Musical word (.ok (.octave n))
  | tooBent (bent : TooBent word) :
      Musical word (.error (.tooManyAccidentals (String.ofList word)))
  | largeOctave {n : Nat} (spelt : SpellsOctave word n) (large : UInt32.size ≤ n) :
      Musical word (.error (.octaveOutOfRange (String.ofList word)))

/-- The character of a dot or of a tie stands in a word. -/
def Marked (word : List Char) : Prop := '.' ∈ word ∨ '~' ∈ word

/-- What a word is read as, with a colon right behind it or not. -/
inductive Reading (word : List Char) (colon : Bool) : Except LexicalFault Token → Prop
  | voice {n : UInt32} (behind : colon = true) (spelt : SpellsVoice word n) :
      Reading word colon (.ok (.voice n))
  | musical {result : Except LexicalFault Token}
      (unvoiced : ¬ (colon = true ∧ ∃ n, SpellsVoice word n)) (musical : Musical word result) :
      Reading word colon result
  | malformed (unvoiced : ¬ (colon = true ∧ ∃ n, SpellsVoice word n))
      (unmusical : ∀ result, ¬ Musical word result) (marked : Marked word) :
      Reading word colon (.error (.malformedLength (String.ofList word)))
  | name (unvoiced : ¬ (colon = true ∧ ∃ n, SpellsVoice word n))
      (unmusical : ∀ result, ¬ Musical word result) (unmarked : ¬ Marked word) :
      Reading word colon (.ok (.name (String.ofList word)))

theorem SpellsNumber.all {ds : List Char} {n : Nat} (spelt : SpellsNumber ds n) :
    ds.all Char.isDigit = true := List.all_eq_true.mpr spelt.digits

theorem ofDigits?_of_spells {ds : List Char} {n : UInt32} (spelt : SpellsNumber ds n.toNat) :
    Count.ofDigits? ds = some n := by
  have small := n.toNat_lt
  simp [Count.ofDigits?, spelt.nonempty, spelt.all, spelt.value, small]

theorem ofDigits?_of_large {ds : List Char} {n : Nat} (spelt : SpellsNumber ds n)
    (large : UInt32.size ≤ n) : Count.ofDigits? ds = none := by
  have past : ¬ n < UInt32.size := Nat.not_lt.mpr large
  simp [Count.ofDigits?, spelt.value, past]

theorem spellsNumber_of_ofDigits? {ds : List Char} {n : UInt32}
    (read : Count.ofDigits? ds = some n) : SpellsNumber ds n.toNat := by
  have value := Count.toNat_of_ofDigits? read
  unfold Count.ofDigits? at read
  split at read
  · cases read
  · rename_i proper
    simp only [Bool.or_eq_true, List.isEmpty_iff, Bool.not_eq_true', not_or,
      Bool.not_eq_false, List.all_eq_true] at proper
    exact ⟨proper.1, proper.2, value.symm⟩

theorem ofDigits?_eq_some_iff {ds : List Char} {n : UInt32} :
    Count.ofDigits? ds = some n ↔ SpellsNumber ds n.toNat :=
  ⟨spellsNumber_of_ofDigits?, ofDigits?_of_spells⟩

/-- Characters of one kind, and what follows them. -/
theorem span_of_all {p : Char → Bool} {cs tail : List Char} (kind : ∀ c ∈ cs, p c = true)
    (ends : ∀ c ∈ tail.head?, p c = false) :
    (cs ++ tail).takeWhile p = cs ∧ (cs ++ tail).dropWhile p = tail := by
  obtain ⟨taken, dropped⟩ := Lexeme.span_append cs (Or.inr ends)
  rw [taken, dropped, List.takeWhile_eq_self_iff.mpr kind, List.dropWhile_eq_nil_iff.mpr kind]
  exact ⟨rfl, List.nil_append tail⟩

theorem noteValue?_eq_some_iff {cs : List Char} {v : NoteValue} :
    noteValue? cs = some v ↔ SpellsValue cs v := by
  constructor
  · intro read
    unfold noteValue? at read
    simp only at read
    split at read
    · rename_i dotted
      obtain ⟨n, count, rfl⟩ := Option.map_eq_some_iff.mp read
      have dots : cs.dropWhile Char.isDigit =
          List.replicate (cs.dropWhile Char.isDigit).length '.' :=
        List.eq_replicate_iff.mpr ⟨rfl, by simpa using dotted⟩
      refine ⟨cs.takeWhile Char.isDigit, ofDigits?_eq_some_iff.mp count, ?_⟩
      simp only
      rw [← dots, List.takeWhile_append_dropWhile]
    · cases read
  · rintro ⟨ds, spelt, rfl⟩
    have ends : ∀ c ∈ (List.replicate v.dots '.').head?, c.isDigit = false := by
      intro c first
      rw [List.eq_of_mem_replicate (List.mem_of_mem_head? first)]
      rfl
    obtain ⟨taken, dropped⟩ := span_of_all spelt.digits ends
    simp [noteValue?, taken, dropped, ofDigits?_eq_some_iff.mpr spelt]

theorem splitTies_eq_splitOn (cs : List Char) : splitTies cs = cs.splitOn '~' :=
  Text.eq_splitOn_of_step rfl (fun _ _ => rfl) cs

theorem mapM_eq_some_iff {α β : Type} {f : α → Option β} {xs : List α} {ys : List β} :
    xs.mapM f = some ys ↔ List.Forall₂ (fun x y => f x = some y) xs ys := by
  induction xs generalizing ys with
  | nil => cases ys <;> simp
  | cons x xs ih =>
      rw [List.mapM_cons]
      cases first : f x with
      | none => cases ys <;> simp [first]
      | some y =>
          cases rest : xs.mapM f with
          | none => cases ys <;> simp [first, ← ih, rest]
          | some others => cases ys <;> simp [first, ← ih, rest]

theorem tie_not_mem {cs : List Char} {v : NoteValue} (spelt : SpellsValue cs v) : '~' ∉ cs := by
  obtain ⟨ds, number, rfl⟩ := spelt
  intro member
  rcases List.mem_append.mp member with digit | dot
  · exact absurd (number.digits _ digit) (by decide)
  · exact absurd (List.eq_of_mem_replicate dot) (by decide)

/-- No tie stands inside of a note value. -/
theorem ties_not_mem {items : List (List Char)} {values : List NoteValue}
    (spelt : List.Forall₂ SpellsValue items values) : ∀ item ∈ items, '~' ∉ item := by
  induction spelt with
  | nil => exact List.forall_mem_nil _
  | cons first _ ih => exact List.forall_mem_cons.mpr ⟨tie_not_mem first, ih⟩

theorem length?_eq_some_iff {cs : List Char} {l : Length} :
    length? cs = some l ↔ SpellsLength cs l := by
  have values : length? cs = some l ↔ List.Forall₂ SpellsValue (cs.splitOn '~') l.values := by
    rw [length?, splitTies_eq_splitOn, Option.map_eq_some_iff]
    simp only [mapM_eq_some_iff, noteValue?_eq_some_iff]
    constructor
    · rintro ⟨_, spelt, rfl⟩
      exact spelt
    · intro spelt
      exact ⟨l.values, spelt, rfl⟩
  rw [values]
  constructor
  · intro spelt
    exact ⟨cs.splitOn '~', List.splitOn_ne_nil '~' cs, spelt, (List.intercalate_splitOn '~').symm⟩
  · rintro ⟨items, nonempty, spelt, rfl⟩
    rwa [List.splitOn_intercalate '~' (ties_not_mem spelt) nonempty]

/-- A length starts with a digit. -/
theorem SpellsLength.exists_digit {cs : List Char} {l : Length} (spelt : SpellsLength cs l) :
    ∃ d tail, cs = d :: tail ∧ d.isDigit = true := by
  obtain ⟨values⟩ := l
  obtain ⟨items, nonempty, spelt, rfl⟩ := spelt
  cases spelt with
  | nil => exact absurd rfl nonempty
  | @cons item v others _ first _ =>
      obtain ⟨ds, number, rfl⟩ := first
      obtain ⟨d, ds, rfl⟩ := List.exists_cons_of_ne_nil number.nonempty
      have digit := number.digits d List.mem_cons_self
      cases others with
      | nil => exact ⟨d, _, List.intercalate_singleton, digit⟩
      | cons => exact ⟨d, _, List.intercalate_cons_cons, digit⟩

theorem optionalLength?_eq_some_iff {cs : List Char} {l : Option Length} :
    optionalLength? cs = some l ↔ SpellsOptional cs l := by
  cases cs with
  | nil =>
      constructor
      · intro read
        cases read
        exact .nothing
      · intro spelt
        cases spelt with
        | nothing => rfl
        | length spelt =>
            obtain ⟨d, tail, same, -⟩ := spelt.exists_digit
            cases same
  | cons c cs =>
      have read : optionalLength? (c :: cs) = (length? (c :: cs)).map some := rfl
      rw [read, Option.map_eq_some_iff]
      simp only [length?_eq_some_iff]
      constructor
      · rintro ⟨_, spelt, rfl⟩
        exact .length spelt
      · intro spelt
        cases spelt with
        | length spelt => exact ⟨_, spelt, rfl⟩

/-- No accidental stands in front of what follows the accidentals of a note. -/
theorem SpellsOptional.ends {cs : List Char} {l : Option Length} (spelt : SpellsOptional cs l) :
    ∀ c ∈ cs.head?, isAccidental c = false := by
  cases spelt with
  | nothing => simp
  | length spelt =>
      obtain ⟨d, tail, rfl, digit⟩ := spelt.exists_digit
      intro c first
      cases first
      by_contra accidental
      simp only [isAccidental, Bool.not_eq_false, Bool.or_eq_true, decide_eq_true_eq] at accidental
      rcases accidental with (rfl | rfl) | rfl <;> exact absurd digit (by decide)

theorem bend_cons (c : Char) (signs : List Char) : bend (c :: signs) = bend [c] + bend signs := by
  simp only [bend, List.count_cons, List.count_nil]
  omega

/-- One more accidental is taken if the sum stays within the limit. -/
theorem accidentals?_cons {sum : Int} {c : Char} (cs : List Char)
    (accidental : isAccidental c = true) (small : sum.natAbs ≤ maxAccidentals) :
    accidentals? sum (c :: cs) =
      if (sum + bend [c]).natAbs ≤ maxAccidentals then accidentals? (sum + bend [c]) cs
      else none := by
  simp only [isAccidental, Bool.or_eq_true, decide_eq_true_eq] at accidental
  rcases accidental with (rfl | rfl) | rfl
  · rfl
  · rfl
  · have same : sum + bend ['_'] = sum := Int.add_zero sum
    rw [same, if_pos small]
    rfl

section Accidentals

variable (sum : Int) {signs : List Char} (tail : List Char)

theorem accidentals?_append (accidentals : ∀ c ∈ signs, isAccidental c = true)
    (limited : ∀ before, before <+: signs → (sum + bend before).natAbs ≤ maxAccidentals) :
    accidentals? sum (signs ++ tail) = accidentals? (sum + bend signs) tail := by
  induction signs generalizing sum with
  | nil => simp [bend]
  | cons c signs ih =>
      obtain ⟨first, others⟩ := List.forall_mem_cons.mp accidentals
      have small : sum.natAbs ≤ maxAccidentals := by
        simpa [bend] using limited [] List.nil_prefix
      have next : (sum + bend [c]).natAbs ≤ maxAccidentals := limited [c] ⟨signs, rfl⟩
      rw [List.cons_append, accidentals?_cons _ first small, if_pos next, bend_cons c signs,
        ← Int.add_assoc]
      refine ih _ others fun before begins => ?_
      rw [Int.add_assoc, ← bend_cons]
      exact limited (c :: before) (List.cons_prefix_cons.mpr ⟨rfl, begins⟩)

theorem accidentals?_of_passed (accidentals : ∀ c ∈ signs, isAccidental c = true)
    (small : sum.natAbs ≤ maxAccidentals) (passed : maxAccidentals < (sum + bend signs).natAbs) :
    accidentals? sum (signs ++ tail) = none := by
  induction signs generalizing sum with
  | nil =>
      rw [bend, List.count_nil, List.count_nil, Int.sub_self, Int.add_zero] at passed
      omega
  | cons c signs ih =>
      obtain ⟨first, others⟩ := List.forall_mem_cons.mp accidentals
      rw [List.cons_append, accidentals?_cons _ first small]
      split
      · rename_i next
        rw [bend_cons, ← Int.add_assoc] at passed
        exact ih _ others next passed
      · rfl

variable {tail}

theorem accidentals?_of_ends (ends : ∀ c ∈ tail.head?, isAccidental c = false) :
    accidentals? sum tail = some (sum, tail) := by
  cases tail with
  | nil => rfl
  | cons c tail =>
      have other := ends c rfl
      simp only [isAccidental, Bool.or_eq_false_iff, decide_eq_false_iff_not] at other
      rw [accidentals?, if_neg other.1.1, if_neg other.1.2, if_neg other.2]

end Accidentals

/-- The beginning of a word after its letter passes the limit, or its accidentals are read. -/
theorem accidentals?_cases (cs : List Char) :
    ∃ signs tail, cs = signs ++ tail ∧ (∀ c ∈ signs, isAccidental c = true) ∧
      (maxAccidentals < (bend signs).natAbs ∧ accidentals? 0 cs = none ∨
        (∀ before, before <+: signs → (bend before).natAbs ≤ maxAccidentals) ∧
          accidentals? 0 cs = some (bend signs, tail)) := by
  have whole := List.takeWhile_append_dropWhile (p := isAccidental) (l := cs)
  have accidentals : ∀ c ∈ cs.takeWhile isAccidental, isAccidental c = true :=
    fun c member => List.mem_takeWhile_imp member
  by_cases limited : ∀ before, before <+: cs.takeWhile isAccidental →
      (bend before).natAbs ≤ maxAccidentals
  · refine ⟨_, _, whole.symm, accidentals, Or.inr ⟨limited, ?_⟩⟩
    have ends : ∀ c ∈ (cs.dropWhile isAccidental).head?, isAccidental c = false := by
      intro c first
      have test := List.head?_dropWhile_not isAccidental cs
      rw [Option.mem_def.mp first] at test
      simpa using test
    have read := accidentals?_append 0 (cs.dropWhile isAccidental) accidentals
      (by simpa using limited)
    rw [whole, Int.zero_add, accidentals?_of_ends _ ends] at read
    exact read
  · simp only [not_forall, Nat.not_le] at limited
    obtain ⟨before, ⟨after, begins⟩, passed⟩ := limited
    have inside : ∀ c ∈ before, isAccidental c = true := by
      intro c member
      apply accidentals
      rw [← begins]
      exact List.mem_append_left _ member
    have split : cs = before ++ (after ++ cs.dropWhile isAccidental) := by
      rw [← List.append_assoc, begins, whole]
    refine ⟨before, _, split, inside, Or.inl ⟨passed, ?_⟩⟩
    rw [split]
    exact accidentals?_of_passed 0 _ inside (Nat.zero_le _) (by simpa using passed)

theorem classify_of_spellsNote {word : List Char} {n : Note} (spelt : SpellsNote word n) :
    classify word = .ok (.note n) := by
  obtain ⟨signs, suffix, rfl, letter, accidentals, limited, sum, length⟩ := spelt
  have read := accidentals?_append 0 suffix accidentals (by simpa using limited)
  rw [Int.zero_add, accidentals?_of_ends _ length.ends, sum] at read
  simp only [classify, letter, read, optionalLength?_eq_some_iff.mpr length, ↓reduceIte]

theorem classify_of_tooBent {word : List Char} (bent : TooBent word) :
    classify word = .error (.tooManyAccidentals (String.ofList word)) := by
  obtain ⟨letter, signs, suffix, rfl, noteLetter, accidentals, passed⟩ := bent
  have read := accidentals?_of_passed 0 suffix accidentals (Nat.zero_le _)
    (by simpa using passed)
  simp only [classify, noteLetter, read, ↓reduceIte]

theorem classify_of_spellsRest {word : List Char} {l : Option Length} (spelt : SpellsRest word l) :
    classify word = .ok (.rest l) := by
  obtain ⟨suffix, rfl, length⟩ := spelt
  have other : isNoteLetter 'r' = false := rfl
  simp only [classify, other, optionalLength?_eq_some_iff.mpr length, Bool.false_eq_true,
    ↓reduceIte]

/-- An octave is read as its number is. -/
theorem classify_octave {ds : List Char} {n : Nat} (spelt : SpellsNumber ds n) :
    classify ('o' :: ds) =
      match Count.ofDigits? ds with
      | some n => .ok (.octave n)
      | none => .error (.octaveOutOfRange (String.ofList ('o' :: ds))) := by
  have other : isNoteLetter 'o' = false := rfl
  have proper : ds.isEmpty = false := by simpa using spelt.nonempty
  rw [classify, other, proper, spelt.all]
  rfl

theorem Musical.classify {word : List Char} {result : Except LexicalFault Token}
    (musical : Musical word result) : Word.classify word = result := by
  cases musical with
  | note spelt => exact classify_of_spellsNote spelt
  | rest spelt => exact classify_of_spellsRest spelt
  | octave spelt =>
      obtain ⟨ds, rfl, number⟩ := spelt
      rw [classify_octave number, ofDigits?_eq_some_iff.mpr number]
  | tooBent bent => exact classify_of_tooBent bent
  | largeOctave spelt large =>
      obtain ⟨ds, rfl, number⟩ := spelt
      rw [classify_octave number, ofDigits?_of_large number large]

theorem note_or_plain {c : Char} (cs : List Char) (letter : isNoteLetter c = true) :
    (∃ result, Musical (c :: cs) result) ∨ classify (c :: cs) = plain (c :: cs) := by
  obtain ⟨signs, tail, rfl, accidentals, ⟨passed, read⟩ | ⟨limited, read⟩⟩ := accidentals?_cases cs
  · exact Or.inl ⟨_, .tooBent ⟨c, signs, tail, rfl, letter, accidentals, passed⟩⟩
  · cases length : optionalLength? tail with
    | none =>
        right
        simp only [classify, letter, read, length, ↓reduceIte]
    | some l =>
        have spelt : SpellsNote (c :: (signs ++ tail)) ⟨c, bend signs, l⟩ :=
          ⟨signs, tail, rfl, letter, accidentals, limited, rfl,
            optionalLength?_eq_some_iff.mp length⟩
        exact Or.inl ⟨_, .note spelt⟩

theorem rest_or_plain (cs : List Char) :
    (∃ result, Musical ('r' :: cs) result) ∨ classify ('r' :: cs) = plain ('r' :: cs) := by
  have other : ¬ isNoteLetter 'r' = true := by decide
  cases length : optionalLength? cs with
  | none =>
      right
      rw [classify, if_neg other, if_pos rfl, length]
  | some l => exact Or.inl ⟨_, .rest ⟨cs, rfl, optionalLength?_eq_some_iff.mp length⟩⟩

/-- The digits of an octave are music whatever they count. -/
theorem musical_octave {ds : List Char} (nonempty : ds ≠ [])
    (digits : ∀ d ∈ ds, d.isDigit = true) : ∃ result, Musical ('o' :: ds) result := by
  have number : SpellsNumber ds (Nat.ofDigitChars 10 ds 0) := ⟨nonempty, digits, rfl⟩
  by_cases small : Nat.ofDigitChars 10 ds 0 < UInt32.size
  · rw [← UInt32.toNat_ofNat_of_lt small] at number
    exact ⟨_, .octave ⟨ds, rfl, number⟩⟩
  · exact ⟨_, .largeOctave ⟨ds, rfl, number⟩ (Nat.not_lt.mp small)⟩

/-- A word is music, or read as one that is not. -/
theorem musical_or_plain (word : List Char) :
    (∃ result, Musical word result) ∨ classify word = plain word := by
  cases word with
  | nil => exact Or.inr rfl
  | cons c cs =>
      by_cases letter : isNoteLetter c = true
      · exact note_or_plain cs letter
      · by_cases rest : c = 'r'
        · subst rest
          exact rest_or_plain cs
        · by_cases octave : (c = 'o' && !cs.isEmpty && cs.all Char.isDigit) = true
          · simp only [Bool.and_eq_true, decide_eq_true_eq, Bool.not_eq_true',
              List.isEmpty_eq_false_iff, List.all_eq_true] at octave
            obtain ⟨⟨rfl, nonempty⟩, digits⟩ := octave
            exact Or.inl (musical_octave nonempty digits)
          · right
            rw [classify, if_neg letter, if_neg rest, if_neg octave]

theorem voice?_eq_some_iff {word : List Char} {n : UInt32} :
    voice? word = some n ↔ SpellsVoice word n := by
  constructor
  · intro read
    unfold voice? at read
    split at read
    · exact ⟨_, rfl, ofDigits?_eq_some_iff.mp read⟩
    · cases read
  · rintro ⟨ds, rfl, number⟩
    exact ofDigits?_eq_some_iff.mpr number

theorem plain_eq (word : List Char) :
    (Marked word ∧ plain word = .error (.malformedLength (String.ofList word))) ∨
      (¬ Marked word ∧ plain word = .ok (.name (String.ofList word))) := by
  by_cases marked : Marked word
  · have test : (word.contains '.' || word.contains '~') = true := by
      simpa [Marked] using marked
    exact Or.inl ⟨marked, if_pos test⟩
  · have test : ¬ (word.contains '.' || word.contains '~') = true := by
      simpa [Marked] using marked
    exact Or.inr ⟨marked, if_neg test⟩

/-- A word without a voice has the reading that it is classified as. -/
theorem reading_classify {word : List Char} {colon : Bool}
    (unvoiced : ¬ (colon = true ∧ ∃ n, SpellsVoice word n)) :
    Reading word colon (classify word) := by
  by_cases music : ∃ result, Musical word result
  · obtain ⟨result, musical⟩ := music
    rw [musical.classify]
    exact .musical unvoiced musical
  · rw [(musical_or_plain word).resolve_left music]
    rcases plain_eq word with ⟨marked, plain⟩ | ⟨unmarked, plain⟩
    · rw [plain]
      exact .malformed unvoiced (not_exists.mp music) marked
    · rw [plain]
      exact .name unvoiced (not_exists.mp music) unmarked

/-- It takes a colon to make a voice. -/
theorem classify_ne_voice {word : List Char} (n : UInt32) : classify word ≠ .ok (.voice n) := by
  intro voice
  have reading : Reading word false (classify word) := reading_classify (by simp)
  rw [voice] at reading
  cases reading with
  | voice behind _ => cases behind
  | musical _ musical => cases musical

theorem Reading.of_unvoiced {word : List Char} {colon : Bool} {result : Except LexicalFault Token}
    (reading : Reading word colon result) (unvoiced : ¬ (colon = true ∧ ∃ n, SpellsVoice word n)) :
    classify word = result := by
  have plain (unmusical : ∀ result, ¬ Musical word result) : classify word = plain word :=
    (musical_or_plain word).resolve_left (not_exists.mpr unmusical)
  cases reading with
  | voice behind spelt => exact absurd ⟨behind, _, spelt⟩ unvoiced
  | musical _ musical => exact musical.classify
  | malformed _ unmusical marked =>
      rw [plain unmusical]
      exact ((plain_eq word).resolve_right fun other => other.1 marked).2
  | name _ unmusical unmarked =>
      rw [plain unmusical]
      exact ((plain_eq word).resolve_left fun other => unmarked other.1).2

theorem Reading.of_voiced {word : List Char} {result : Except LexicalFault Token} {n : UInt32}
    (reading : Reading word true result) (spelt : SpellsVoice word n) :
    result = .ok (.voice n) := by
  have voiced : true = true ∧ ∃ n, SpellsVoice word n := ⟨rfl, n, spelt⟩
  cases reading with
  | voice _ same =>
      rw [← voice?_eq_some_iff] at spelt same
      rw [spelt] at same
      cases same
      rfl
  | musical unvoiced _ | malformed unvoiced _ _ | name unvoiced _ _ => exact absurd voiced unvoiced

theorem isAlpha_iff {c : Char} :
    c.isAlpha = true ↔ (65 ≤ c.toNat ∧ c.toNat ≤ 90) ∨ (97 ≤ c.toNat ∧ c.toNat ≤ 122) := by
  have letter : c.isAlpha = (decide (c.val ≥ 'A'.val ∧ c.val ≤ 'Z'.val) ||
      decide (c.val ≥ 'a'.val) && decide (c.val ≤ 'z'.val)) := rfl
  rw [letter, Bool.or_eq_true, Bool.and_eq_true, decide_eq_true_eq, decide_eq_true_eq,
    decide_eq_true_eq]
  exact Iff.rfl

theorem isAlpha_of_isDigit {c : Char} (digit : c.isDigit = true) : c.isAlpha = false := by
  rw [Char.isDigit_iff_toNat] at digit
  rw [Bool.eq_false_iff, ne_eq, isAlpha_iff]
  have last : '9'.toNat = 57 := rfl
  omega

theorem isAlpha_of_isAccidental {c : Char} (accidental : isAccidental c = true) :
    c.isAlpha = false := by
  simp only [isAccidental, Bool.or_eq_true, decide_eq_true_eq] at accidental
  rcases accidental with (rfl | rfl) | rfl <;> rfl

theorem SpellsNumber.isAlpha {d : Char} {ds : List Char} {n : Nat}
    (spelt : SpellsNumber (d :: ds) n) : d.isAlpha = false :=
  isAlpha_of_isDigit (spelt.digits d List.mem_cons_self)

theorem SpellsOptional.isAlpha {d : Char} {cs : List Char} {l : Option Length}
    (spelt : SpellsOptional (d :: cs) l) : d.isAlpha = false := by
  cases spelt with
  | length spelt =>
      obtain ⟨_, _, same, digit⟩ := spelt.exists_digit
      cases same
      exact isAlpha_of_isDigit digit

/-- No letter follows the first character of music. -/
theorem Musical.isAlpha {c d : Char} {more : List Char} {token : Token}
    (musical : Musical (c :: d :: more) (.ok token)) : d.isAlpha = false := by
  cases musical with
  | note spelt =>
      obtain ⟨signs, suffix, same, -, accidentals, -, -, length⟩ := spelt
      cases signs with
      | nil =>
          rw [List.nil_append] at same
          rw [← (List.cons.inj same).2] at length
          exact length.isAlpha
      | cons sign signs =>
          obtain ⟨rfl, -⟩ := List.cons.inj (List.cons.inj same).2
          exact isAlpha_of_isAccidental (accidentals d List.mem_cons_self)
  | rest spelt =>
      obtain ⟨suffix, same, length⟩ := spelt
      rw [← (List.cons.inj same).2] at length
      exact length.isAlpha
  | octave spelt =>
      obtain ⟨ds, same, number⟩ := spelt
      rw [← (List.cons.inj same).2] at number
      exact number.isAlpha

/-- A word that starts with two letters is no music. -/
theorem Reading.of_letters {word : List Char} {colon : Bool} {token : Token} {c d : Char}
    {more : List Char} (reading : Reading word colon (.ok token)) (two : word = c :: d :: more)
    (letter : d.isAlpha = true) : token = .name (String.ofList word) := by
  have consonant : ¬ d.isAlpha = false := by simp [letter]
  subst two
  cases reading with
  | voice _ spelt =>
      obtain ⟨ds, same, number⟩ := spelt
      rw [← (List.cons.inj same).2] at number
      exact absurd number.isAlpha consonant
  | musical _ musical => exact absurd musical.isAlpha consonant
  | name => rfl

end Songline.Word

namespace Songline.Lexeme

open Word

theorem ofChars_of_isAlpha {c : Char} (cs : List Char) (letter : c.isAlpha = true) :
    ofChars c cs = ofWord (c :: cs) := by
  unfold ofChars
  split
  case h_12 =>
    have digit : ¬ c.isDigit = true := by
      intro digit
      rw [isAlpha_of_isDigit digit] at letter
      cases letter
    rw [if_neg digit, if_pos letter]
  all_goals exact absurd letter (by decide)

/-- Only a voice takes the colon behind its word. -/
theorem ofWord_cases (cs : List Char) :
    (∃ n tail, SpellsVoice (cs.takeWhile isWordChar) n ∧ cs.dropWhile isWordChar = ':' :: tail ∧
      ofWord cs = .ok ⟨.voice n, cs.takeWhile isWordChar ++ [':'], tail⟩) ∨
    (¬ ((cs.dropWhile isWordChar).head? = some ':' ∧
        ∃ n, SpellsVoice (cs.takeWhile isWordChar) n) ∧
      ofWord cs = (classify (cs.takeWhile isWordChar)).map
        (⟨·, cs.takeWhile isWordChar, cs.dropWhile isWordChar⟩)) := by
  simp only [← voice?_eq_some_iff]
  unfold ofWord
  simp only
  split
  · rename_i n tail voice behind
    exact Or.inl ⟨n, tail, voice, behind, rfl⟩
  · rename_i other
    refine Or.inr ⟨?_, rfl⟩
    rintro ⟨behind, n, voice⟩
    obtain ⟨tail, after⟩ := List.head?_eq_some_iff.mp behind
    exact other n tail voice after

theorem reading_iff (cs : List Char) (result : Except LexicalFault Token) :
    (ofWord cs).map (·.token) = result ↔
      Reading (cs.takeWhile isWordChar) ((cs.dropWhile isWordChar).head? = some ':') result := by
  rcases ofWord_cases cs with ⟨n, tail, voice, behind, read⟩ | ⟨unvoiced, read⟩
  · have colon : decide ((cs.dropWhile isWordChar).head? = some ':') = true := by
      rw [behind]
      rfl
    rw [read, colon]
    constructor
    · rintro rfl
      exact .voice rfl voice
    · intro reading
      exact (reading.of_voiced voice).symm
  · rw [← decide_eq_true_eq (p := _ = _)] at unvoiced
    have same : (ofWord cs).map (·.token) = classify (cs.takeWhile isWordChar) := by
      rw [read]
      cases classify (cs.takeWhile isWordChar) <;> rfl
    rw [same]
    constructor
    · rintro rfl
      exact reading_classify unvoiced
    · intro reading
      exact reading.of_unvoiced unvoiced

theorem ofWord_taken {cs : List Char} {x : Lexeme} (found : ofWord cs = .ok x) :
    (∃ n, x.token = .voice n) ∧ x.spelling = cs.takeWhile isWordChar ++ [':'] ∧
        cs.dropWhile isWordChar = ':' :: x.rest ∨
      (∀ n, x.token ≠ .voice n) ∧ x.spelling = cs.takeWhile isWordChar ∧
        cs.dropWhile isWordChar = x.rest := by
  rcases ofWord_cases cs with ⟨n, tail, -, behind, read⟩ | ⟨-, read⟩
  · rw [read] at found
    cases found
    exact Or.inl ⟨⟨n, rfl⟩, rfl, behind⟩
  · rw [read] at found
    cases word : classify (cs.takeWhile isWordChar) with
    | error fault =>
        rw [word] at found
        cases found
    | ok token =>
        rw [word] at found
        cases found
        refine Or.inr ⟨fun n same => ?_, rfl, rfl⟩
        have voice : token = .voice n := same
        rw [voice] at word
        exact classify_ne_voice n word

/-- A word in a text is a run of word characters. It is read as what it spells and as nothing else;
a voice takes the colon behind it, and nothing else is taken. No music comes of a word that starts
with two letters. -/
theorem words_read_exactly {c : Char} (cs : List Char) (letter : c.isAlpha = true) :
    let word := (c :: cs).takeWhile isWordChar
    let after := (c :: cs).dropWhile isWordChar
    (∀ result, (ofChars c cs).map (·.token) = result ↔
        Reading word (after.head? = some ':') result) ∧
      (∀ x, ofChars c cs = .ok x →
        (∃ n, x.token = .voice n) ∧ x.spelling = word ++ [':'] ∧ after = ':' :: x.rest ∨
          (∀ n, x.token ≠ .voice n) ∧ x.spelling = word ∧ after = x.rest) ∧
      ∀ d more, word = c :: d :: more → d.isAlpha = true →
        ∀ x, ofChars c cs = .ok x → x.token = .name (String.ofList word) := by
  intro word after
  rw [ofChars_of_isAlpha cs letter]
  refine ⟨reading_iff (c :: cs), fun x found => ofWord_taken found, ?_⟩
  intro d more two second x found
  have reading := (reading_iff (c :: cs) (.ok x.token)).mp (by rw [found]; rfl)
  exact reading.of_letters two second

/-- Flats and a tied length, and an instrument that starts like a note and has a hyphen and a colon
behind it. -/
theorem flats_and_bass_read :
    'b'.isAlpha = true ∧
      Reading "b--4.~8".toList false (.ok (.note ⟨'b', -2, some ⟨[⟨4, 1⟩, ⟨8, 0⟩]⟩⟩)) ∧
      'a'.isAlpha = true ∧ 'c'.isAlpha = true ∧
      ∃ x, ofChars 'a' "coustic-bass: c".toList = .ok x ∧ x.token = .name "acoustic-bass" := by
  have flats : (ofChars 'b' "--4.~8 d".toList).map (·.token) =
      .ok (.note ⟨'b', -2, some ⟨[⟨4, 1⟩, ⟨8, 0⟩]⟩⟩) := rfl
  have bass : ofChars 'a' "coustic-bass: c".toList =
      .ok ⟨.name "acoustic-bass", "acoustic-bass".toList, ": c".toList⟩ := rfl
  obtain ⟨readings, -, -⟩ := words_read_exactly (c := 'b') "--4.~8 d".toList rfl
  obtain ⟨-, -, letters⟩ := words_read_exactly (c := 'a') "coustic-bass: c".toList rfl
  exact ⟨rfl, (readings _).mp flats, rfl, rfl, _, bass, letters 'c' _ rfl rfl _ bass⟩

end Songline.Lexeme
