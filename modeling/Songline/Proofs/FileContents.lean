import Songline.Files.Disk

set_option autoImplicit false

namespace Songline

namespace FileTree

theorem lookup_putEntry (name other : String) (n : FileTree) (entries : List (String × FileTree)) :
    (putEntry name n entries).lookup other =
      if other = name then some n else entries.lookup other := by
  induction entries with
  | nil => by_cases same : other = name <;> simp [putEntry, same]
  | cons e entries ih =>
      obtain ⟨key, child⟩ := e
      by_cases here : key = name
      · subst here
        by_cases same : other = key
        · simp [putEntry, same]
        · have differ : (other == key) = false := beq_eq_false_iff_ne.mpr same
          simp [putEntry, List.lookup_cons, same, differ]
      · by_cases same : other = key
        · subst same
          simp [putEntry, here]
        · have differ : (other == key) = false := beq_eq_false_iff_ne.mpr same
          simp [putEntry, here, List.lookup_cons, differ, ih]

theorem isSome_lookup_putEntry (name other : String) (n : FileTree)
    (entries : List (String × FileTree)) (found : (entries.lookup other).isSome) :
    ((putEntry name n entries).lookup other).isSome := by
  rw [lookup_putEntry]
  split
  · rfl
  · exact found

theorem at_dir_cons (entries : List (String × FileTree)) (name : String) (place : List String) :
    (dir entries).at? (name :: place) = (entries.lookup name).bind (·.at? place) := rfl

/-- What lies at a place that begins with a name lies in a directory with that name. -/
theorem at_cons_eq_some {t n : FileTree} {name : String} {place : List String}
    (found : t.at? (name :: place) = some n) :
    ∃ entries child, t = dir entries ∧ entries.lookup name = some child ∧
      child.at? place = some n := by
  cases t with
  | file bytes => cases found
  | dir entries =>
      rw [at_dir_cons, Option.bind_eq_some_iff] at found
      obtain ⟨child, here, below⟩ := found
      exact ⟨entries, child, rfl, here, below⟩

theorem at_append (t : FileTree) (place rest : List String) :
    t.at? (place ++ rest) = (t.at? place).bind (·.at? rest) := by
  induction place generalizing t with
  | nil => simp [at?]
  | cons name place ih =>
      cases t with
      | file bytes => rfl
      | dir entries =>
          rw [List.cons_append, at_dir_cons, at_dir_cons, Option.bind_assoc]
          simp only [ih]

/-- What lies in a directory has a name there. -/
theorem isSome_lookup {t n : FileTree} {place : List String} {name : String}
    {entries : List (String × FileTree)} (parent : t.at? place = some (dir entries))
    (found : t.at? (place ++ [name]) = some n) : (entries.lookup name).isSome := by
  rw [at_append, parent, Option.bind_some, at_dir_cons] at found
  cases here : entries.lookup name with
  | none =>
      rw [here] at found
      cases found
  | some child => rfl

theorem putAt_cons {entries : List (String × FileTree)} {child : FileTree} (n : FileTree)
    (name last : String) (place : List String) (here : entries.lookup name = some child) :
    putAt n (name :: (place ++ [last])) (dir entries) =
      dir (putEntry name (putAt n (place ++ [last]) child) entries) := by
  cases rest : place ++ [last] with
  | nil => exact absurd rest (by simp)
  | cons next more => simp only [putAt, here]

theorem at_putAt_self (n : FileTree) (place : List String) (name : String) (t : FileTree)
    (entries : List (String × FileTree)) (parent : t.at? place = some (dir entries)) :
    (putAt n (place ++ [name]) t).at? (place ++ [name]) = some n := by
  induction place generalizing t with
  | nil =>
      cases parent
      simp [putAt, at?, lookup_putEntry]
  | cons next place ih =>
      obtain ⟨siblings, child, rfl, here, below⟩ := at_cons_eq_some parent
      rw [List.cons_append, putAt_cons n next name place here, at_dir_cons, lookup_putEntry]
      simpa only [↓reduceIte, Option.bind_some] using ih child below

/-- Every directory of the first tree is one of the second, with all of its names. -/
def Keeps (t after : FileTree) : Prop :=
  ∀ place entries, t.at? place = some (dir entries) →
    ∃ entries', after.at? place = some (dir entries') ∧
      ∀ name, (entries.lookup name).isSome → (entries'.lookup name).isSome

theorem Keeps.refl (t : FileTree) : t.Keeps t :=
  fun _ entries found => ⟨entries, found, fun _ known => known⟩

/-- Giving a name another node keeps a directory, if the node keeps what had the name before. -/
theorem keeps_putEntry (name : String) (n : FileTree) (entries : List (String × FileTree))
    (kept : ∀ child, entries.lookup name = some child → child.Keeps n) :
    (dir entries).Keeps (dir (putEntry name n entries)) := by
  intro place inner found
  cases place with
  | nil =>
      cases found
      exact ⟨_, rfl, fun other known => isSome_lookup_putEntry name other n entries known⟩
  | cons next place =>
      rw [at_dir_cons, Option.bind_eq_some_iff] at found
      obtain ⟨child, here, below⟩ := found
      rw [at_dir_cons, lookup_putEntry]
      by_cases same : next = name
      · subst same
        simpa only [↓reduceIte, Option.bind_some] using kept child here place inner below
      · simp only [same, ↓reduceIte, here, Option.bind_some]
        exact Keeps.refl child place inner below

/-- A file has no directories to keep. -/
theorem keeps_of_not_dir {t : FileTree} (plain : ∀ entries, t ≠ dir entries) (after : FileTree) :
    t.Keeps after := by
  intro place entries found
  cases t with
  | dir inner => exact absurd rfl (plain inner)
  | file bytes => cases place <;> cases found

theorem keeps_putAt (bytes : ByteArray) (place : List String) (name : String) (t : FileTree)
    (entries : List (String × FileTree)) (parent : t.at? place = some (dir entries))
    (plain : ∀ inner, t.at? (place ++ [name]) ≠ some (dir inner)) :
    t.Keeps (putAt (file bytes) (place ++ [name]) t) := by
  induction place generalizing t with
  | nil =>
      cases parent
      apply keeps_putEntry
      intro child here
      apply keeps_of_not_dir
      rintro inner rfl
      exact plain inner (by simp [at?, here])
  | cons next place ih =>
      obtain ⟨siblings, child, rfl, here, below⟩ := at_cons_eq_some parent
      rw [List.cons_append, putAt_cons _ next name place here]
      apply keeps_putEntry
      intro other found
      rw [here] at found
      cases found
      apply ih child below
      intro inner
      simpa only [List.cons_append, at_dir_cons, here, Option.bind_some] using plain inner

end FileTree

namespace Disk

theorem enter_of_keeps {d : Disk} {root : FileTree} (kept : d.root.Keeps root)
    {place next : List String} {name : String} (entered : d.enter place name = .ok next) :
    { d with root := root }.enter place name = .ok next := by
  unfold enter at entered ⊢
  split at entered
  · rename_i entries found
    obtain ⟨entries', found', names⟩ := kept place entries found
    simp only [found']
    by_cases stays : name = "" ∨ name = "."
    · rw [if_pos stays] at entered ⊢
      exact entered
    · rw [if_neg stays] at entered ⊢
      by_cases up : name = ".."
      · rw [if_pos up] at entered ⊢
        exact entered
      · rw [if_neg up] at entered ⊢
        by_cases long : name.utf8ByteSize > 255
        · rw [if_pos long] at entered
          cases entered
        · rw [if_neg long] at entered ⊢
          by_cases known : (entries.lookup name).isSome
          · rw [if_pos known] at entered
            rw [if_pos (names name known)]
            exact entered
          · rw [if_neg known] at entered
            cases entered
  · cases entered

/-- A path that could be followed still leads to the same place. -/
theorem follow_of_keeps {d : Disk} {root : FileTree} (kept : d.root.Keeps root)
    (names place : List String) (next : List String)
    (followed : names.foldlM d.enter place = .ok next) :
    names.foldlM { d with root := root }.enter place = .ok next := by
  induction names generalizing place with
  | nil => exact followed
  | cons name names ih =>
      rw [List.foldlM_cons] at followed ⊢
      cases entered : d.enter place name with
      | error e =>
          rw [entered] at followed
          cases followed
      | ok inner =>
          rw [entered] at followed
          rw [enter_of_keeps kept entered]
          exact ih inner followed

/-- The names of a path are those before the last and the last, when no slash follows it. -/
theorem segments_of_splitLast {path name : String} {before : List String}
    (parts : splitLast path = (before, name, false)) (proper : isDots name = false) :
    Path.segments path = before ++ [name] := by
  have whole := List.takeWhile_append_dropWhile (p := fun s => decide (s = ""))
    (l := (Path.segments path).reverse)
  cases rest : (Path.segments path).reverse.dropWhile (· = "") with
  | nil =>
      simp only [splitLast, rest, Prod.mk.injEq] at parts
      obtain ⟨-, rfl, -⟩ := parts
      cases proper
  | cons last earlier =>
      simp only [splitLast, rest, Prod.mk.injEq, Bool.not_eq_false', List.isEmpty_iff] at parts
      obtain ⟨rfl, rfl, noSlash⟩ := parts
      rw [rest, noSlash, List.nil_append] at whole
      rw [← List.reverse_reverse (Path.segments path), ← whole, List.reverse_cons]

/-- Where a file is written: in a directory that exists, under a name that may be new and that no
directory has. -/
structure Slot (d : Disk) (path : String) (before : List String) (name : String)
    (place : List String) : Prop where
  allowed : check path = .ok ()
  segments : Path.segments path = before ++ [name]
  followed : before.foldlM d.enter (d.origin path) = .ok place
  parent : ∃ entries, d.root.at? place = some (.dir entries)
  proper : isDots name = false
  short : ¬name.utf8ByteSize > 255
  plain : ∀ entries, d.root.at? (place ++ [name]) ≠ some (.dir entries)

theorem slot_eq_ok {d : Disk} {path name : String} {place : List String} {trailing : Bool}
    (found : d.slot path = .ok (place, name, trailing)) :
    check path = .ok () ∧ ∃ before, splitLast path = (before, name, trailing) ∧
      before.foldlM d.enter (d.origin path) = .ok place ∧
      ∃ entries, d.root.at? place = some (.dir entries) := by
  unfold slot at found
  cases allowed : check path with
  | error e =>
      rw [allowed] at found
      cases found
  | ok =>
      rw [allowed] at found
      change ((splitLast path).1.foldlM d.enter (d.origin path) >>= _) = _ at found
      cases followed : (splitLast path).1.foldlM d.enter (d.origin path) with
      | error e =>
          rw [followed] at found
          cases found
      | ok inner =>
          rw [followed] at found
          change (if (d.root.at? inner).any FileTree.isDir then _ else _) = _ at found
          split at found
          · rename_i isDir
            cases found
            refine ⟨rfl, (splitLast path).1, rfl, followed, ?_⟩
            cases node : d.root.at? place with
            | none =>
                rw [node] at isDir
                cases isDir
            | some n =>
                rw [node] at isDir
                cases n with
                | file bytes => cases isDir
                | dir entries => exact ⟨entries, rfl⟩
          · cases found

theorem slot_of_write {d d' : Disk} {path : String} {bytes : ByteArray}
    (written : d.write path bytes = .ok d') :
    ∃ before name place, Slot d path before name place ∧
      d' = { d with root := FileTree.putAt (.file bytes) (place ++ [name]) d.root } := by
  unfold write at written
  cases found : d.slot path with
  | error e =>
      rw [found] at written
      cases written
  | ok slot =>
      obtain ⟨place, name, trailing⟩ := slot
      obtain ⟨allowed, before, parts, followed, parent⟩ := slot_eq_ok found
      rw [found] at written
      change (if trailing || isDots name then _ else _) = _ at written
      split at written
      · cases written
      · rename_i named
        rw [Bool.or_eq_true, not_or, Bool.not_eq_true, Bool.not_eq_true] at named
        obtain ⟨rfl, proper⟩ := named
        split at written
        · cases written
        · rename_i short
          split at written
          · cases written
          · rename_i plain
            cases written
            exact ⟨before, name, place, ⟨allowed, segments_of_splitLast parts proper, followed,
              parent, proper, short, plain⟩, rfl⟩

/-- The last step of a path, to a name that the directory has. -/
theorem enter_last {d : Disk} {place : List String} {name : String}
    {entries : List (String × FileTree)} (found : d.root.at? place = some (.dir entries))
    (proper : isDots name = false) (short : ¬name.utf8ByteSize > 255)
    (named : (entries.lookup name).isSome) : d.enter place name = .ok (place ++ [name]) := by
  simp only [isDots, Bool.or_eq_false_iff, decide_eq_false_iff_not] at proper
  obtain ⟨⟨notEmpty, notHere⟩, notUp⟩ := proper
  simp only [enter, found, notEmpty, notHere, or_self, notUp, short, named, ↓reduceIte]

/-- A file that was written can be read, and holds what was written. -/
theorem read_of_write {d d' : Disk} {path : String} {bytes : ByteArray}
    (written : d.write path bytes = .ok d') : d'.read path = .ok bytes := by
  obtain ⟨before, name, place, slot, rfl⟩ := slot_of_write written
  obtain ⟨entries, parent⟩ := slot.parent
  have kept := FileTree.keeps_putAt bytes place name d.root entries parent slot.plain
  have stored := FileTree.at_putAt_self (.file bytes) place name d.root entries parent
  have followed := follow_of_keeps kept before (d.origin path) place slot.followed
  obtain ⟨entries', found, -⟩ := kept place entries parent
  have named : (entries'.lookup name).isSome := FileTree.isSome_lookup found stored
  have entered : enter { d with root := FileTree.putAt (.file bytes) (place ++ [name]) d.root }
      place name = .ok (place ++ [name]) := enter_last found slot.proper slot.short named
  have located : locate { d with root := FileTree.putAt (.file bytes) (place ++ [name]) d.root }
      path = .ok (place ++ [name]) := by
    have origin : origin { d with root := FileTree.putAt (.file bytes) (place ++ [name]) d.root }
        path = d.origin path := rfl
    simp only [locate, slot.allowed, slot.segments, origin, List.foldlM_append, followed,
      List.foldlM_cons, entered, List.foldlM_nil, bind, Except.bind, pure, Except.pure]
  unfold read
  rw [located]
  simp only [bind, Except.bind, stored]

/-- A text that was written is the text that is read. -/
theorem readText_of_write {d d' : Disk} {path text : String}
    (written : d.write path text.toUTF8 = .ok d') : d'.readText path = .ok text := by
  have decoded : String.fromUTF8? text.toUTF8 = some text := dif_pos text.isValidUTF8
  unfold readText
  simp only [read_of_write written, bind, Except.bind, decoded]

end Disk

end Songline
