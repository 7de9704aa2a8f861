import Mathlib.Algebra.Ring.Int.Defs
import Mathlib.Algebra.Ring.Nat
import Songline.Notation.Word

set_option autoImplicit false

/- Words, read with operations that cannot always be done: sums that must fit into their type, and
slices that must start between two characters. All of them can be done in a word of a line: the sum
of accidentals is limited after each of them, and slices start behind characters of one byte. -/
namespace Songline

/-- What is computed with operations that cannot always be done. It is `none` if one of them could
not. -/
abbrev Checked (α : Type) : Type := Option α

namespace Checked

/-- An unsigned number, if it fits into the bits. -/
def unsigned (bits n : Nat) : Checked Nat := if n < 2 ^ bits then pure n else failure

/-- A signed number, if it fits into the bits. -/
def signed (bits : Nat) (n : Int) : Checked Int :=
  if -2 ^ (bits - 1) ≤ n ∧ n < 2 ^ (bits - 1) then pure n else failure

theorem unsigned_eq {bits n : Nat} (fits : n < 2 ^ bits) : unsigned bits n = some n := if_pos fits

theorem signed_eq {bits : Nat} {n : Int} (low : -2 ^ (bits - 1) ≤ n) (high : n < 2 ^ (bits - 1)) :
    signed bits n = some n := if_pos ⟨low, high⟩

def byteSize (cs : List Char) : Nat := (cs.map Char.utf8Size).sum

@[simp] theorem byteSize_cons (c : Char) (cs : List Char) :
    byteSize (c :: cs) = c.utf8Size + byteSize cs := List.sum_cons

/-- The text from a byte on, if a character starts there or the text ends there. -/
def sliceFrom (bytes : Nat) : List Char → Checked (List Char)
  | [] => if bytes = 0 then pure [] else failure
  | c :: cs =>
    if bytes = 0 then pure (c :: cs)
    else if c.utf8Size ≤ bytes then sliceFrom (bytes - c.utf8Size) cs
    else failure

theorem sliceFrom_zero (cs : List Char) : sliceFrom 0 cs = some cs := by
  cases cs <;> rfl

theorem sliceFrom_byteSize (before after : List Char) :
    sliceFrom (byteSize before) (before ++ after) = some after := by
  induction before with
  | nil => exact sliceFrom_zero after
  | cons c before ih =>
      have positive := c.utf8Size_pos
      rw [byteSize_cons, List.cons_append, sliceFrom, if_neg (by omega), if_pos (by omega),
        Nat.add_sub_cancel_left, ih]

/-- A text of one-byte characters has as many bytes as characters. -/
theorem byteSize_eq_length {cs : List Char} (narrow : ∀ c ∈ cs, c.utf8Size = 1) :
    byteSize cs = cs.length := by
  induction cs with
  | nil => rfl
  | cons c cs ih =>
      obtain ⟨first, rest⟩ := List.forall_mem_cons.mp narrow
      rw [byteSize_cons, first, ih rest, List.length_cons, Nat.add_comm]

/-- Reads accidentals, of which each counts 1 or -1 or nothing in a sum of 8 bits. Gives the sum and
the bytes that were read, or nothing if there are too many. -/
def accidentals (sum : Int) (bytes : Nat) : List Char → Checked (Option (Int × Nat))
  | [] => pure (some (sum, bytes))
  | c :: cs =>
    if c = '+' ∨ c = '-' ∨ c = '_' then do
      let sum ← signed 8 (if c = '+' then sum + 1 else if c = '-' then sum - 1 else sum)
      let size ← signed 8 sum.natAbs
      if size ≤ maxAccidentals then
        let bytes ← unsigned 32 (bytes + c.utf8Size)
        accidentals sum bytes cs
      else pure none
    else pure (some (sum, bytes))

/-- A count and dots: the count is read off, and the rest sliced off by its bytes, which are counted
in 32 bits if they are dots. -/
def noteValue (cs : List Char) : Checked (Option NoteValue) := do
  let digits := cs.takeWhile Char.isDigit
  let dots ← sliceFrom (byteSize digits) cs
  if dots.all (· = '.') then
    match Count.ofDigits? digits with
    | none => pure none
    | some n =>
      let count ← unsigned 32 (byteSize dots)
      pure (some ⟨n, count⟩)
  else pure none

/-- Several note values, if each of the texts is one. -/
def noteValues : List (List Char) → Checked (Option (List NoteValue))
  | [] => pure (some [])
  | piece :: pieces => do
    match ← noteValue piece with
    | none => pure none
    | some value => return (← noteValues pieces).map (value :: ·)

def optionalLength (cs : List Char) : Checked (Option (Option Length)) :=
  if cs.isEmpty then pure (some none)
  else return (← noteValues (Word.splitTies cs)).map fun values => some ⟨values⟩

def classify : List Char → Checked (Except LexicalFault Token)
  | [] => pure (Word.plain [])
  | c :: cs =>
    if Word.isNoteLetter c then do
      match ← accidentals 0 0 cs with
      | none => pure (.error (.tooManyAccidentals (String.ofList (c :: cs))))
      | some (sum, bytes) =>
        match ← optionalLength (← sliceFrom bytes cs) with
        | some length => pure (.ok (.note ⟨c, sum, length⟩))
        | none => pure (Word.plain (c :: cs))
    else if c = 'r' then do
      match ← optionalLength cs with
      | some length => pure (.ok (.rest length))
      | none => pure (Word.plain (c :: cs))
    else pure (Word.classify (c :: cs))

/-- What an accidental makes of the sum. -/
def Sign (c : Char) (sum next : Int) : Prop :=
  c = '+' ∧ next = sum + 1 ∨ c = '-' ∧ next = sum - 1 ∨ c = '_' ∧ next = sum

theorem Sign.narrow {c : Char} {sum next : Int} (sign : Sign c sum next) : c.utf8Size = 1 := by
  rcases sign with ⟨rfl, -⟩ | ⟨rfl, -⟩ | ⟨rfl, -⟩ <;> rfl

theorem Sign.accidentals? {c : Char} {cs : List Char} {sum next : Int} (sign : Sign c sum next)
    (small : sum.natAbs ≤ maxAccidentals) :
    Word.accidentals? sum (c :: cs) =
      if next.natAbs ≤ maxAccidentals then Word.accidentals? next cs else none := by
  rcases sign with ⟨rfl, rfl⟩ | ⟨rfl, rfl⟩ | ⟨rfl, rfl⟩
  · rfl
  · rfl
  · rw [if_pos small]
    rfl

/-- The sum fits into its type, as it was within the limit before. -/
theorem Sign.accidentals {c : Char} {cs : List Char} {sum next : Int} (sign : Sign c sum next)
    {bytes : Nat} (small : sum.natAbs ≤ maxAccidentals)
    (room : bytes + (c :: cs).length < 2 ^ 32) :
    Checked.accidentals sum bytes (c :: cs) =
      if next.natAbs ≤ maxAccidentals then Checked.accidentals next (bytes + 1) cs
      else some none := by
  have step : (if c = '+' then sum + 1 else if c = '-' then sum - 1 else sum) = next := by
    rcases sign with ⟨rfl, rfl⟩ | ⟨rfl, rfl⟩ | ⟨rfl, rfl⟩ <;> rfl
  have accidental : c = '+' ∨ c = '-' ∨ c = '_' := sign.imp And.left (Or.imp And.left And.left)
  have near : sum.natAbs ≤ 12 := small
  have close : next = sum + 1 ∨ next = sum - 1 ∨ next = sum :=
    sign.imp And.right (Or.imp And.right And.right)
  have fits : signed 8 next = some next := signed_eq (by omega) (by omega)
  have sizeFits : signed 8 (next.natAbs : Int) = some (next.natAbs : Int) :=
    signed_eq (by omega) (by omega)
  have placeFits : unsigned 32 (bytes + 1) = some (bytes + 1) := by
    rw [List.length_cons] at room
    exact unsigned_eq (by omega)
  rw [Checked.accidentals, if_pos accidental, step, fits, sign.narrow, placeFits]
  simp only [Option.bind_eq_bind, Option.bind_some, sizeFits, Int.ofNat_le]
  rfl

/-- Reading accidentals can be done. Either there are too many, or the sum is within the limit and
what was read are characters of one byte. -/
theorem accidentals_spec (cs : List Char) (sum : Int) (bytes : Nat)
    (small : sum.natAbs ≤ maxAccidentals) (room : bytes + cs.length < 2 ^ 32) :
    (Word.accidentals? sum cs = none ∧ accidentals sum bytes cs = some none) ∨
      ∃ total read tail, Word.accidentals? sum cs = some (total, tail) ∧
        accidentals sum bytes cs = some (some (total, bytes + byteSize read)) ∧
        cs = read ++ tail ∧ total.natAbs ≤ maxAccidentals := by
  induction cs generalizing sum bytes with
  | nil => exact Or.inr ⟨sum, [], [], rfl, rfl, rfl, small⟩
  | cons c cs ih =>
      by_cases accidental : ∃ next, Sign c sum next
      · obtain ⟨next, sign⟩ := accidental
        rw [sign.accidentals? small, sign.accidentals small room]
        by_cases within : next.natAbs ≤ maxAccidentals
        · rw [if_pos within, if_pos within]
          rw [List.length_cons] at room
          rcases ih next (bytes + 1) within (by omega) with tooMany | found
          · exact Or.inl tooMany
          · obtain ⟨total, read, tail, plain, done, rfl, limit⟩ := found
            refine Or.inr ⟨total, c :: read, tail, plain, ?_, rfl, limit⟩
            rw [done, byteSize_cons, sign.narrow, Nat.add_assoc]
        · rw [if_neg within, if_neg within]
          exact Or.inl ⟨rfl, rfl⟩
      · have other : ¬ (c = '+' ∨ c = '-' ∨ c = '_') := by
          rintro (sharp | flat | natural)
          · exact accidental ⟨_, Or.inl ⟨sharp, rfl⟩⟩
          · exact accidental ⟨_, Or.inr (Or.inl ⟨flat, rfl⟩)⟩
          · exact accidental ⟨_, Or.inr (Or.inr ⟨natural, rfl⟩)⟩
        refine Or.inr ⟨sum, [], c :: cs, ?_, ?_, rfl, small⟩
        · rw [not_or, not_or] at other
          rw [Word.accidentals?, if_neg other.1, if_neg other.2.1, if_neg other.2.2]
        · rw [accidentals, if_neg other]
          rfl

/-- The accidentals of a note are within the limit. -/
theorem natAbs_of_classify {cs : List Char} {n : Note} (short : cs.length < 2 ^ 32)
    (found : Word.classify cs = .ok (.note n)) : n.accidentals.natAbs ≤ maxAccidentals := by
  have plain : ∀ word, Word.plain word ≠ .ok (.note n) := by
    intro word named
    unfold Word.plain at named
    split at named <;> cases named
  unfold Word.classify at found
  split at found
  · exact absurd found (plain _)
  · rename_i c cs
    have room : 0 + cs.length < 2 ^ 32 := by
      rw [List.length_cons] at short
      omega
    split at found
    · rcases accidentals_spec cs 0 0 (by decide) room with
        ⟨none, -⟩ | ⟨total, read, tail, sum, -, -, limit⟩
      · rw [none] at found
        cases found
      · simp only [sum] at found
        split at found
        · cases found
          exact limit
        · exact absurd found (plain _)
    · split at found
      · split at found
        · cases found
        · exact absurd found (plain _)
      · split at found
        · split at found <;> cases found
        · exact absurd found (plain _)

theorem noteValue_eq (cs : List Char) (short : cs.length < 2 ^ 32) :
    noteValue cs = some (Word.noteValue? cs) := by
  have whole := List.takeWhile_append_dropWhile (p := Char.isDigit) (l := cs)
  have sliced : sliceFrom (byteSize (cs.takeWhile Char.isDigit)) cs =
      some (cs.dropWhile Char.isDigit) := by
    have slice := sliceFrom_byteSize (cs.takeWhile Char.isDigit) (cs.dropWhile Char.isDigit)
    rwa [whole] at slice
  simp only [noteValue, sliced, Option.bind_eq_bind, Option.bind_some, Word.noteValue?]
  by_cases dotted : (cs.dropWhile Char.isDigit).all (· = '.')
  · have narrow : ∀ c ∈ cs.dropWhile Char.isDigit, c.utf8Size = 1 := by
      intro c inside
      have dot := List.all_eq_true.mp dotted c inside
      rw [of_decide_eq_true dot]
      rfl
    have count := byteSize_eq_length narrow
    have fewer : (cs.dropWhile Char.isDigit).length ≤ cs.length :=
      (List.dropWhile_suffix _).length_le
    rw [if_pos dotted, if_pos dotted, count, unsigned_eq (by omega)]
    cases Count.ofDigits? (cs.takeWhile Char.isDigit) <;> rfl
  · rw [if_neg dotted, if_neg dotted]
    rfl

theorem noteValues_eq (pieces : List (List Char)) (short : ∀ cs ∈ pieces, cs.length < 2 ^ 32) :
    noteValues pieces = some (pieces.mapM Word.noteValue?) := by
  induction pieces with
  | nil => rfl
  | cons piece pieces ih =>
      obtain ⟨here, later⟩ := List.forall_mem_cons.mp short
      simp only [noteValues, noteValue_eq piece here, ih later, List.mapM_cons,
        Option.bind_eq_bind, Option.bind_some]
      cases Word.noteValue? piece with
      | none => rfl
      | some value => cases pieces.mapM Word.noteValue? <;> rfl

theorem length_le_of_mem_splitTies (cs : List Char) :
    ∀ piece ∈ Word.splitTies cs, piece.length ≤ cs.length := by
  induction cs with
  | nil =>
      intro piece inside
      rcases List.mem_singleton.mp inside with rfl
      exact Nat.le_refl _
  | cons c cs ih =>
      intro piece inside
      rw [List.length_cons]
      unfold Word.splitTies at inside
      split at inside
      · rcases List.mem_cons.mp inside with rfl | later
        · exact Nat.zero_le _
        · exact Nat.le_succ_of_le (ih piece later)
      · split at inside
        · rw [List.mem_singleton.mp inside]
          exact Nat.succ_le_succ (Nat.zero_le _)
        · rename_i first rest pieces
          rw [pieces] at ih
          rcases List.mem_cons.mp inside with rfl | later
          · exact Nat.succ_le_succ (ih first List.mem_cons_self)
          · exact Nat.le_succ_of_le (ih piece (List.mem_cons_of_mem _ later))

theorem optionalLength_eq (cs : List Char) (short : cs.length < 2 ^ 32) :
    optionalLength cs = some (Word.optionalLength? cs) := by
  have pieces := noteValues_eq (Word.splitTies cs) fun piece inside =>
    Nat.lt_of_le_of_lt (length_le_of_mem_splitTies cs piece inside) short
  unfold optionalLength Word.optionalLength?
  split
  · rfl
  · simp only [pieces, Word.length?, Option.bind_eq_bind, Option.bind_some, Option.map_map]
    rfl

/-- Whatever a word is can be found out. -/
theorem classify_eq (cs : List Char) (short : cs.length < 2 ^ 32) :
    classify cs = some (Word.classify cs) := by
  cases cs with
  | nil => rfl
  | cons c cs =>
      rw [List.length_cons] at short
      by_cases letter : Word.isNoteLetter c = true
      · simp only [classify, Word.classify, letter, ↓reduceIte]
        rcases accidentals_spec cs 0 0 (by decide) (by omega) with
          ⟨none, done⟩ | ⟨total, read, tail, found, done, rfl, limit⟩
        · rw [none, done]
          rfl
        · have short' : tail.length < 2 ^ 32 := by
            rw [List.length_append] at short
            omega
          simp only [found, done, Nat.zero_add, sliceFrom_byteSize, Option.bind_eq_bind,
            Option.bind_some, optionalLength_eq tail short']
          cases Word.optionalLength? tail <;> rfl
      · by_cases rest : c = 'r'
        · have length := optionalLength_eq cs (by omega)
          simp only [classify, Word.classify, rest, length, Option.bind_eq_bind,
            Option.bind_some, ↓reduceIte]
          cases Word.optionalLength? cs <;> rfl
        · simp only [classify, letter, rest, ↓reduceIte]
          rfl

end Checked

end Songline
