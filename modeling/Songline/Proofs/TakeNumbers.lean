import Mathlib.Data.List.Basic
import Mathlib.Data.List.Nodup
import Mathlib.Order.Bounds.Basic
import Songline.Output.Takes
import Songline.Proofs.SparedFiles

set_option autoImplicit false

namespace Songline

namespace Path

theorem splitSlashes_ne_nil (cs : List Char) : splitSlashes cs ≠ [] := by
  cases cs with
  | nil => exact List.cons_ne_nil _ _
  | cons c cs =>
      unfold splitSlashes
      split
      · exact List.cons_ne_nil _ _
      · split <;> exact List.cons_ne_nil _ _

theorem splitSlashes_append (cs ds : List Char) :
    splitSlashes (cs ++ '/' :: ds) = splitSlashes cs ++ splitSlashes ds := by
  induction cs with
  | nil => rfl
  | cons c cs ih =>
      rw [List.cons_append, splitSlashes, splitSlashes, ih]
      by_cases slash : c = '/'
      · rw [if_pos slash, if_pos slash, List.cons_append]
      · rw [if_neg slash, if_neg slash]
        cases pieces : splitSlashes cs with
        | nil => exact absurd pieces (splitSlashes_ne_nil cs)
        | cons piece more => rfl

theorem splitSlashes_of_plain {cs : List Char} (plain : '/' ∉ cs) : splitSlashes cs = [cs] := by
  induction cs with
  | nil => rfl
  | cons c cs ih =>
      obtain ⟨here, later⟩ := List.ne_and_not_mem_of_not_mem_cons plain
      rw [splitSlashes, if_neg here.symm, ih later]

theorem segments_of_plain {name : String} (plain : '/' ∉ name.toList) : segments name = [name] := by
  rw [segments, splitSlashes_of_plain plain, List.map_singleton, String.ofList_toList]

/-- A path in a directory goes where that goes, and on to a name. -/
theorem segments_join {dir name : String} (named : dir ≠ "") (plain : '/' ∉ name.toList) :
    ∃ before, segments (join dir name) = before ++ [name] ∧
      (segments dir = before ∨ segments dir = before ++ [""]) := by
  have last : (splitSlashes name.toList).map String.ofList = [name] := segments_of_plain plain
  by_cases slash : dir.toList.getLast? = some '/'
  · obtain ⟨front, ends⟩ := List.getLast?_eq_some_iff.mp slash
    refine ⟨(splitSlashes front).map String.ofList, ?_, Or.inr ?_⟩
    · rw [segments, join, if_neg named, if_pos slash, String.toList_append, ends, List.append_assoc,
        List.singleton_append, splitSlashes_append, List.map_append, last]
    · rw [segments, ends, splitSlashes_append, List.map_append]
      rfl
  · have chars : (join dir name).toList = dir.toList ++ '/' :: name.toList := by
      rw [join, if_neg named, if_neg slash, String.toList_append, String.toList_append,
        List.append_assoc]
      rfl
    refine ⟨segments dir, ?_, Or.inl rfl⟩
    rw [segments, chars, splitSlashes_append, List.map_append, last]
    rfl

theorem isAbsolute_join {dir name : String} (named : dir ≠ "") :
    isAbsolute (join dir name) = isAbsolute dir := by
  have first : ∀ rest : List Char, (dir.toList ++ rest).head? = dir.toList.head? := by
    intro rest
    cases chars : dir.toList with
    | nil => exact absurd (String.toList_eq_nil_iff.mp chars) named
    | cons c cs => rfl
  unfold isAbsolute join
  rw [if_neg named]
  split <;> simp only [String.toList_append, List.append_assoc, first]

theorem isAbsolute_of_plain {name : String} (plain : '/' ∉ name.toList) :
    isAbsolute name = false := by
  unfold isAbsolute
  cases chars : name.toList with
  | nil => rfl
  | cons c cs =>
      rw [chars] at plain
      have differ : c ≠ '/' := fun same => plain (same ▸ List.mem_cons_self)
      simpa using differ

theorem mem_join {dir name : String} {c : Char} (inside : c ∈ dir.toList) :
    c ∈ (join dir name).toList := by
  unfold join
  split
  · rename_i empty
    rw [empty] at inside
    cases inside
  · split <;> simp only [String.toList_append, List.mem_append, inside, true_or]

theorem size_le_join (dir name : String) : dir.utf8ByteSize ≤ (join dir name).utf8ByteSize := by
  unfold join
  split
  · rename_i empty
    rw [empty]
    exact Nat.zero_le _
  · split <;> simp only [String.utf8ByteSize_append] <;> omega

end Path

namespace Disk

/-- What can be entered under a name of its own is in a directory. -/
theorem entry_of_enter {d : Disk} {place next : List String} {name : String}
    (proper : isDots name = false) (entered : d.enter place name = .ok next) :
    ∃ entries, d.root.at? place = some (.dir entries) ∧ (entries.lookup name).isSome := by
  unfold isDots at proper
  simp only [Bool.or_eq_false_iff, decide_eq_false_iff_not] at proper
  obtain ⟨⟨blank, here⟩, up⟩ := proper
  unfold enter at entered
  split at entered
  · rename_i entries found
    refine ⟨entries, found, ?_⟩
    simp only [blank, here, up, or_self, ↓reduceIte] at entered
    split at entered
    · cases entered
    · split at entered
      · assumption
      · cases entered
  · cases entered

/-- The step from a directory to itself. -/
theorem enter_self {d : Disk} {place : List String} {entries : List (String × FileTree)}
    {name : String} (found : d.root.at? place = some (.dir entries))
    (stays : name = "" ∨ name = ".") : d.enter place name = .ok place := by
  simp only [enter, found, stays, ↓reduceIte]

/-- A path that is no longer than one that can be taken, and of characters of it, can be taken. -/
theorem check_of_part {dir path : String} (named : dir ≠ "")
    (chars : ∀ c ∈ dir.toList, c ∈ path.toList) (short : dir.utf8ByteSize ≤ path.utf8ByteSize)
    (allowed : check path = .ok ()) : check dir = .ok () := by
  unfold check at allowed ⊢
  split at allowed
  · cases allowed
  · rename_i clean
    split at allowed
    · cases allowed
    · split at allowed
      · cases allowed
      · rename_i size
        have clean' : ¬ dir.toList.contains '\x00' = true := by
          rw [List.contains_iff_mem] at clean ⊢
          exact fun inside => clean (chars _ inside)
        have size' : ¬ dir.utf8ByteSize ≥ 4096 := by omega
        rw [if_neg clean', if_neg named, if_neg size']

/-- Following some names and one more. -/
theorem follow_concat (d : Disk) (before : List String) (name : String)
    (start place : List String) :
    (before ++ [name]).foldlM d.enter start = .ok place ↔
      ∃ parent, before.foldlM d.enter start = .ok parent ∧ d.enter parent name = .ok place := by
  rw [List.foldlM_append]
  cases before.foldlM d.enter start with
  | error e => simp [bind, Except.bind]
  | ok parent =>
      simp only [List.foldlM_cons, List.foldlM_nil, bind_pure, Except.ok.injEq, exists_eq_left']
      exact Iff.rfl

/-- What a path in a directory leads to is in the directory. -/
theorem entry_of_contains {d : Disk} {dir name : String} (plain : '/' ∉ name.toList)
    (proper : isDots name = false) (there : d.contains (Path.join dir name) = true) :
    ∃ entries, d.node? (if dir = "" then "." else dir) = some (.dir entries) ∧
      (entries.lookup name).isSome := by
  cases located : d.locate (Path.join dir name) with
  | error e =>
      simp only [contains, node?, located, Option.isSome_none, Bool.false_eq_true] at there
  | ok place =>
      obtain ⟨allowed, followed⟩ := (d.locate_eq_ok_iff _ place).mp located
      -- The directory is where the path is before its last step.
      suffices reached : ∃ parent, d.enter parent name = .ok place ∧
          ∀ entries, d.root.at? parent = some (.dir entries) →
            d.locate (if dir = "" then "." else dir) = .ok parent by
        obtain ⟨parent, entered, leads⟩ := reached
        obtain ⟨entries, found, known⟩ := entry_of_enter proper entered
        refine ⟨entries, ?_, known⟩
        simp only [node?, leads entries found, found]
      by_cases here : dir = ""
      · rw [here, Path.join, if_pos rfl, Path.segments_of_plain plain, origin,
          Path.isAbsolute_of_plain plain] at followed
        obtain ⟨parent, start, entered⟩ := (d.follow_concat [] name _ place).mp followed
        cases start
        refine ⟨d.cwd, entered, fun entries found => ?_⟩
        rw [if_pos here, locate_eq_ok_iff, Path.segments_of_plain (by decide)]
        exact ⟨by decide, (d.follow_concat [] "." _ _).mpr
          ⟨d.cwd, rfl, enter_self found (Or.inr rfl)⟩⟩
      · obtain ⟨before, whole, pieces⟩ := Path.segments_join here plain
        rw [whole, follow_concat, origin, Path.isAbsolute_join here] at followed
        obtain ⟨parent, reached, entered⟩ := followed
        refine ⟨parent, entered, fun entries found => ?_⟩
        rw [if_neg here, locate_eq_ok_iff]
        refine ⟨check_of_part here (fun c => Path.mem_join) (Path.size_le_join dir name) allowed,
          ?_⟩
        rcases pieces with all | slash
        · rw [all]
          exact reached
        · rw [slash, follow_concat]
          exact ⟨parent, reached, enter_self found (Or.inl rfl)⟩

end Disk

namespace Takes

def fileName (n : Nat) : String := "turn-" ++ numeral n ++ ".wav"

theorem value_numeral (n : Nat) : Nat.ofDigitChars 10 (numeral n).toList 0 = n := by
  have zeros : ∀ k, Nat.ofDigitChars 10 (List.replicate k '0') 0 = 0 := by
    intro k
    induction k with
    | zero => rfl
    | succ k ih => exact ih
  rw [numeral, String.toList_ofList, Nat.ofDigitChars_append, zeros, Nat.ofDigitChars_ten_toDigits]

theorem isDigit_of_mem_numeral {n : Nat} {c : Char} (inside : c ∈ (numeral n).toList) :
    c.isDigit = true := by
  rw [numeral, String.toList_ofList, List.mem_append] at inside
  rcases inside with zero | digit
  · rw [List.eq_of_mem_replicate zero]
    rfl
  · exact Nat.isDigit_of_mem_toDigits (by decide) (by decide) digit

theorem toList_fileName (n : Nat) :
    (fileName n).toList = "turn-".toList ++ (numeral n).toList ++ ".wav".toList := by
  rw [fileName, String.toList_append, String.toList_append]

/-- Different numbers have different names. -/
theorem fileName_injective : Function.Injective fileName := by
  intro a b same
  have chars := congrArg String.toList same
  rw [toList_fileName, toList_fileName] at chars
  have middle := List.append_cancel_left (List.append_cancel_right chars)
  rw [← value_numeral a, middle, value_numeral]

theorem plain_fileName (n : Nat) : '/' ∉ (fileName n).toList := by
  rw [toList_fileName, List.mem_append, List.mem_append]
  rintro ((front | digit) | back)
  · revert front
    decide
  · have digit := isDigit_of_mem_numeral digit
    revert digit
    decide
  · revert back
    decide

theorem proper_fileName (n : Nat) : Disk.isDots (fileName n) = false := by
  have apart : ∀ short : String, short.toList.head? ≠ some 't' → fileName n ≠ short := by
    intro short first same
    rw [← same, toList_fileName] at first
    exact first rfl
  have blank := apart "" (by decide)
  have here := apart "." (by decide)
  have up := apart ".." (by decide)
  simp only [Disk.isDots, blank, here, up, decide_false, Bool.or_false]

theorem firstFree_le (taken : Nat → Bool) (steps n : Nat) :
    firstFree taken steps n ≤ n + steps := by
  induction steps generalizing n with
  | zero => exact Nat.le_refl n
  | succ steps ih =>
      rw [firstFree]
      split
      · have after := ih (n + 1)
        omega
      · omega

/-- If any of the numbers that are tried or the one after them is free, the first that is free is
found. -/
theorem isLeast_firstFree {taken : Nat → Bool} {steps n : Nat}
    (free : ∃ k, n ≤ k ∧ k ≤ n + steps ∧ taken k = false) :
    IsLeast {k | n ≤ k ∧ taken k = false} (firstFree taken steps n) := by
  induction steps generalizing n with
  | zero =>
      obtain ⟨k, low, high, free⟩ := free
      obtain rfl : k = n := by omega
      exact ⟨⟨low, free⟩, fun other inside => inside.1⟩
  | succ steps ih =>
      rw [firstFree]
      cases here : taken n with
      | false => exact ⟨⟨Nat.le_refl n, here⟩, fun other inside => inside.1⟩
      | true =>
          have later : ∀ k, n ≤ k → taken k = false → n + 1 ≤ k := by
            intro k low spare
            have apart : k ≠ n := by
              rintro rfl
              rw [here] at spare
              cases spare
            omega
          obtain ⟨k, low, high, free⟩ := free
          have least := ih ⟨k, later k low free, by omega, free⟩
          exact ⟨⟨Nat.le_of_succ_le least.1.1, least.1.2⟩,
            fun other inside => least.2 ⟨later other inside.1 inside.2, inside.2⟩⟩

theorem entry_of_taken {d : Disk} {dir : String} {n : Nat}
    (taken : d.contains (path dir n) = true) :
    ∃ entries, d.node? (if dir = "" then "." else dir) = some (.dir entries) ∧
      (entries.lookup (fileName n)).isSome :=
  Disk.entry_of_contains (plain_fileName n) (proper_fileName n) taken

/-- No more numbers are taken than there are names in the directory. -/
theorem length_le_nameCount {d : Disk} {dir : String} {numbers : List Nat}
    (apart : numbers.Nodup) (taken : ∀ n ∈ numbers, d.contains (path dir n) = true) :
    numbers.length ≤ nameCount d dir := by
  cases numbers with
  | nil => exact Nat.zero_le _
  | cons first more =>
      obtain ⟨entries, found, -⟩ := entry_of_taken (taken first List.mem_cons_self)
      have count : nameCount d dir = entries.length := by rw [nameCount, found]
      have names : (first :: more).map fileName ⊆ entries.map Prod.fst := by
        intro name inside
        obtain ⟨n, listed, rfl⟩ := List.mem_map.mp inside
        obtain ⟨entries', found', known⟩ := entry_of_taken (taken n listed)
        rw [found] at found'
        cases found'
        obtain ⟨node, here⟩ := Option.isSome_iff_exists.mp known
        obtain ⟨front, back, rfl, -⟩ := List.lookup_eq_some_iff.mp here
        simp
      have fewer := (apart.map fileName_injective).length_le_of_subset names
      rw [List.length_map, List.length_map] at fewer
      rw [count]
      exact fewer

/-- The number of the next take is the least that is free, from the one after the last take on. It
is found after at most as many tries as there are names in the directory. -/
theorem nextNumber_spec (t : Takes) (d : Disk) :
    IsLeast {n | t.next ≤ n ∧ d.contains (path t.dir n) = false} (t.nextNumber d) ∧
      t.nextNumber d ≤ t.next + nameCount d t.dir := by
  refine ⟨isLeast_firstFree ?_, firstFree_le _ _ _⟩
  by_contra full
  have taken : ∀ n ∈ List.range' t.next (nameCount d t.dir + 1),
      d.contains (path t.dir n) = true := by
    intro n inside
    obtain ⟨low, high⟩ := List.mem_range'_1.mp inside
    cases there : d.contains (path t.dir n) with
    | true => rfl
    | false => exact absurd ⟨n, low, by omega, there⟩ full
  have many := length_le_nameCount (List.nodup_range') taken
  rw [List.length_range'] at many
  omega

end Takes

end Songline
