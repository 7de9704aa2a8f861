import Songline.Text.Lines

set_option autoImplicit false

namespace Songline.Text

/-- Whatever takes a text apart at one character, from the end on, splits it there. -/
theorem eq_splitOn_of_step {f : List Char → List (List Char)} {sep : Char} (nil : f [] = [[]])
    (step : ∀ c cs, f (c :: cs) =
      if c = sep then [] :: f cs
      else match f cs with
        | [] => [[c]]
        | piece :: pieces => (c :: piece) :: pieces)
    (cs : List Char) : f cs = cs.splitOn sep := by
  induction cs with
  | nil => exact nil
  | cons c cs ih =>
      rw [step, List.splitOn_cons_eq_if_modifyHead, ih]
      simp only [beq_iff_eq]
      split
      · rfl
      · cases pieces : cs.splitOn sep with
        | nil => exact absurd pieces (List.splitOn_ne_nil sep cs)
        | cons piece rest => rfl

theorem splitNewlines_eq_splitOn (cs : List Char) : splitNewlines cs = cs.splitOn '\n' :=
  eq_splitOn_of_step rfl (fun _ _ => rfl) cs

/-- Each line is written with a newline after it, and what follows the last of these is no line. -/
theorem lineChars_intercalate (ls : List (List Char)) (nonempty : ls ≠ [])
    (oneLine : ∀ l ∈ ls, '\n' ∉ l) (noReturn : ∀ l ∈ ls, l.getLast? ≠ some '\r') :
    lineChars (['\n'].intercalate ls ++ ['\n']) = ls := by
  have pieces : splitNewlines (['\n'].intercalate ls ++ ['\n']) = ls ++ [[]] := by
    rw [splitNewlines_eq_splitOn, List.splitOn_append_cons_self,
      List.splitOn_intercalate '\n' oneLine nonempty, List.splitOn_nil]
  have whole : ∀ l ∈ ls, dropReturn l = l := by
    intro l member
    simp only [dropReturn, noReturn l member, ↓reduceIte]
  have kept : ls.map dropReturn = ls := (List.map_congr_left whole).trans (List.map_id' ls)
  simp only [lineChars, pieces, List.dropLast_concat, List.getLast?_concat, kept]

theorem dropWhile_head (p : Char → Bool) (cs : List Char) (c : Char)
    (first : (cs.dropWhile p).head? = some c) : p c = false := by
  have test := List.head?_dropWhile_not p cs
  rw [first] at test
  exact test

theorem getLast_trimChars (cs : List Char) (c : Char)
    (last : (trimChars cs).getLast? = some c) : isBlank c = false := by
  rw [trimChars, List.getLast?_reverse] at last
  exact dropWhile_head _ _ _ last

theorem head_trimChars (cs : List Char) (c : Char)
    (first : (trimChars cs).head? = some c) : isBlank c = false := by
  have kept : trimChars cs <+: cs.dropWhile isBlank := by
    have suffix := List.dropWhile_suffix isBlank (l := (cs.dropWhile isBlank).reverse)
    simpa only [trimChars, List.reverse_reverse] using List.reverse_prefix.mpr suffix
  apply dropWhile_head isBlank cs
  obtain ⟨rest, whole⟩ := kept
  rw [← whole, List.head?_append, first, Option.some_or]

/-- Nothing is trimmed off a text that neither starts nor ends with a blank. -/
theorem dropWhile_of_head (cs : List Char)
    (first : ∀ c, cs.head? = some c → isBlank c = false) : cs.dropWhile isBlank = cs := by
  cases cs with
  | nil => rfl
  | cons c cs =>
      have solid := first c rfl
      simp only [List.dropWhile_cons, solid, Bool.false_eq_true, ↓reduceIte]

theorem trimChars_trimChars (cs : List Char) : trimChars (trimChars cs) = trimChars cs := by
  have front : (trimChars cs).dropWhile isBlank = trimChars cs :=
    dropWhile_of_head _ (head_trimChars cs)
  have back : (trimChars cs).reverse.dropWhile isBlank = (trimChars cs).reverse := by
    apply dropWhile_of_head
    intro c last
    rw [List.head?_reverse] at last
    exact getLast_trimChars cs c last
  rw [trimChars, front, back, List.reverse_reverse]

theorem trim_trim (s : String) : trim (trim s) = trim s := by
  simp only [trim, String.toList_ofList, trimChars_trimChars]

theorem mem_of_mem_trimChars {c : Char} {cs : List Char} (member : c ∈ trimChars cs) : c ∈ cs := by
  rw [trimChars, List.mem_reverse] at member
  have inner := (List.dropWhile_suffix isBlank).subset member
  exact (List.dropWhile_suffix isBlank).subset (List.mem_reverse.mp inner)

/-- What a line of a saved text has to be like, to be read back as it was. -/
structure IsTrimmedLine (s : String) : Prop where
  trimmed : trim s = s
  oneLine : '\n' ∉ s.toList

theorem trim_isTrimmedLine (s : String) (oneLine : '\n' ∉ s.toList) : IsTrimmedLine (trim s) := by
  refine ⟨trim_trim s, ?_⟩
  intro member
  rw [trim, String.toList_ofList] at member
  exact oneLine (mem_of_mem_trimChars member)

/-- A carriage return is a blank, so that no trimmed text ends with one. -/
theorem IsTrimmedLine.noReturn {s : String} (line : IsTrimmedLine s) :
    s.toList.getLast? ≠ some '\r' := by
  intro last
  rw [← line.trimmed, trim, String.toList_ofList] at last
  exact absurd (getLast_trimChars _ _ last) (by decide)

/-- Lines that are written are read back. An empty text is written where there is none. -/
theorem lines_intercalate (ls : List String) (trimmed : ∀ l ∈ ls, IsTrimmedLine l) :
    lines (String.intercalate "\n" ls ++ "\n") = if ls = [] then [""] else ls := by
  have newline : "\n".toList = ['\n'] := rfl
  by_cases empty : ls = []
  · subst empty
    rfl
  · have read : lineChars (['\n'].intercalate (ls.map String.toList) ++ ['\n']) =
        ls.map String.toList := by
      apply lineChars_intercalate
      · simpa only [ne_eq, List.map_eq_nil_iff] using empty
      · intro l member
        obtain ⟨s, inside, rfl⟩ := List.mem_map.mp member
        exact (trimmed s inside).oneLine
      · intro l member
        obtain ⟨s, inside, rfl⟩ := List.mem_map.mp member
        exact (trimmed s inside).noReturn
    simp only [lines, String.toList_append, String.toList_intercalate, newline, read, List.map_map,
      empty, ↓reduceIte]
    exact List.map_id'' (fun s => String.ofList_toList) ls

end Songline.Text
