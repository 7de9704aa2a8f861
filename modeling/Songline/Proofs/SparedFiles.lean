import Songline.Proofs.FileContents

set_option autoImplicit false

namespace Songline

namespace FileTree

theorem Keeps.trans {t u v : FileTree} (first : t.Keeps u) (second : u.Keeps v) : t.Keeps v := by
  intro place entries found
  obtain ⟨between, found', names⟩ := first place entries found
  obtain ⟨last, found'', names'⟩ := second place between found'
  exact ⟨last, found'', fun name known => names' name (names name known)⟩

/-- Nothing of the first tree is lost in the second: its directories have all of their names, and
its files their content. -/
structure Spares (t after : FileTree) : Prop where
  dirs : t.Keeps after
  files : ∀ place bytes, t.at? place = some (file bytes) → after.at? place = some (file bytes)

theorem Spares.refl (t : FileTree) : t.Spares t := ⟨Keeps.refl t, fun _ _ found => found⟩

theorem Spares.trans {t u v : FileTree} (first : t.Spares u) (second : u.Spares v) :
    t.Spares v where
  dirs := first.dirs.trans second.dirs
  files place bytes found := second.files place bytes (first.files place bytes found)

theorem spares_putEntry (name : String) (n : FileTree) (entries : List (String × FileTree))
    (spared : ∀ child, entries.lookup name = some child → child.Spares n) :
    (dir entries).Spares (dir (putEntry name n entries)) where
  dirs := keeps_putEntry name n entries fun child here => (spared child here).dirs
  files place bytes found := by
    cases place with
    | nil => cases found
    | cons next place =>
        rw [at_dir_cons, Option.bind_eq_some_iff] at found
        obtain ⟨child, here, below⟩ := found
        rw [at_dir_cons, lookup_putEntry]
        by_cases same : next = name
        · subst same
          have kept := (spared child here).files place bytes below
          simpa only [↓reduceIte, Option.bind_some] using kept
        · simpa only [same, ↓reduceIte, here, Option.bind_some] using below

/-- A node that is put where there was none takes nothing away. -/
theorem spares_putAt (n : FileTree) (place : List String) (name : String) (t : FileTree)
    (entries : List (String × FileTree)) (parent : t.at? place = some (dir entries))
    (new : t.at? (place ++ [name]) = none) : t.Spares (putAt n (place ++ [name]) t) := by
  induction place generalizing t with
  | nil =>
      cases parent
      apply spares_putEntry
      intro child here
      rw [List.nil_append, at_dir_cons, here] at new
      cases new
  | cons next place ih =>
      obtain ⟨siblings, child, rfl, here, below⟩ := at_cons_eq_some parent
      rw [List.cons_append, at_dir_cons, here, Option.bind_some] at new
      rw [List.cons_append, putAt_cons _ next name place here]
      apply spares_putEntry
      intro other found
      rw [here] at found
      cases found
      exact ih child below new

end FileTree

namespace Disk

/-- Nothing of the first disk is lost in the second, and paths start from the same directory. -/
structure Spares (d after : Disk) : Prop where
  cwd : after.cwd = d.cwd
  root : d.root.Spares after.root

theorem Spares.refl (d : Disk) : d.Spares d := ⟨rfl, .refl d.root⟩

theorem Spares.trans {d e f : Disk} (first : d.Spares e) (second : e.Spares f) : d.Spares f :=
  ⟨second.cwd.trans first.cwd, first.root.trans second.root⟩

/-- Every file can be read by the paths that it could be read by, and holds what it held. -/
def KeepsFiles (d after : Disk) : Prop :=
  ∀ path bytes, d.read path = .ok bytes → after.read path = .ok bytes

theorem KeepsFiles.trans {d e f : Disk} (first : d.KeepsFiles e) (second : e.KeepsFiles f) :
    d.KeepsFiles f :=
  fun path bytes stored => second path bytes (first path bytes stored)

theorem read_eq_ok_iff (d : Disk) (path : String) (bytes : ByteArray) :
    d.read path = .ok bytes ↔
      ∃ place, d.locate path = .ok place ∧ d.root.at? place = some (.file bytes) := by
  unfold read
  cases d.locate path with
  | error e => simp [bind, Except.bind]
  | ok place =>
      simp only [bind, Except.bind, Except.ok.injEq, exists_eq_left']
      cases d.root.at? place with
      | none => simp
      | some n => cases n <;> simp

/-- A file that can be read is there. -/
theorem contains_of_read {d : Disk} {path : String} {bytes : ByteArray}
    (stored : d.read path = .ok bytes) : d.contains path = true := by
  obtain ⟨place, located, found⟩ := (d.read_eq_ok_iff path bytes).mp stored
  simp only [contains, node?, located, found, Option.isSome_some]

theorem locate_eq_ok_iff (d : Disk) (path : String) (place : List String) :
    d.locate path = .ok place ↔
      check path = .ok () ∧ (Path.segments path).foldlM d.enter (d.origin path) = .ok place := by
  unfold locate
  cases check path with
  | error e => simp [bind, Except.bind]
  | ok => simp [bind, Except.bind]

theorem Spares.keepsFiles {d after : Disk} (spared : d.Spares after) : d.KeepsFiles after := by
  obtain ⟨root, cwd⟩ := after
  obtain ⟨rfl, kept⟩ := spared
  intro path bytes stored
  obtain ⟨place, located, found⟩ := (d.read_eq_ok_iff path bytes).mp stored
  obtain ⟨allowed, followed⟩ := (d.locate_eq_ok_iff path place).mp located
  have followed' := follow_of_keeps kept.dirs _ _ place followed
  exact (read_eq_ok_iff _ path bytes).mpr
    ⟨place, (locate_eq_ok_iff _ path place).mpr ⟨allowed, followed'⟩, kept.files place bytes found⟩

/-- A file that is written where there was nothing takes nothing away. -/
theorem spares_write {d d' : Disk} {path : String} {bytes : ByteArray}
    (new : d.contains path = false) (written : d.write path bytes = .ok d') : d.Spares d' := by
  obtain ⟨before, name, place, slot, rfl⟩ := slot_of_write written
  obtain ⟨entries, parent⟩ := slot.parent
  refine ⟨rfl, FileTree.spares_putAt _ place name d.root entries parent ?_⟩
  cases node : d.root.at? (place ++ [name]) with
  | none => rfl
  | some n =>
      -- Otherwise the path would lead to the node.
      have entered := enter_last parent slot.proper slot.short (FileTree.isSome_lookup parent node)
      have located : d.locate path = .ok (place ++ [name]) := by
        rw [locate_eq_ok_iff, slot.segments, List.foldlM_append, slot.followed]
        refine ⟨slot.allowed, ?_⟩
        simp only [List.foldlM_cons, entered, List.foldlM_nil, bind, Except.bind, pure, Except.pure]
      simp only [contains, node?, located, node, Option.isSome_some, Bool.true_eq_false] at new

theorem spares_createDir {d d' : Disk} {path : String} (created : d.createDir path = .ok d') :
    d.Spares d' := by
  unfold createDir at created
  cases found : d.slot path with
  | error e =>
      rw [found] at created
      cases created
  | ok slot =>
      obtain ⟨place, name, trailing⟩ := slot
      obtain ⟨-, -, -, -, entries, parent⟩ := slot_eq_ok found
      rw [found] at created
      change (if isDots name then _ else _) = _ at created
      split at created
      · cases created
      · split at created
        · cases created
        · split at created
          · cases created
          · rename_i new
            cases created
            exact ⟨rfl, FileTree.spares_putAt _ place name d.root entries parent new⟩

theorem spares_ensureDir (d : Disk) (path : String) : d.Spares (d.ensureDir path).2 := by
  unfold ensureDir
  split
  · rename_i created
    exact spares_createDir created
  · exact .refl d

theorem spares_createDirWith {parents : Disk → Except FileError Unit × Disk}
    (spared : ∀ d : Disk, d.Spares (parents d).2) (d : Disk) (path : String) :
    d.Spares (d.createDirWith path parents).2 := by
  unfold createDirWith
  split
  · have before := spared d
    split
    · rename_i next made
      rw [made] at before
      exact before.trans (next.spares_ensureDir path)
    · rename_i e next refused
      rw [refused] at before
      exact before
  · exact d.spares_ensureDir path

theorem spares_createParents (parts : List String) (d : Disk) :
    d.Spares (createParents parts d).2 := by
  induction parts generalizing d with
  | nil => exact .refl d
  | cons last before ih => exact spares_createDirWith ih d _

theorem spares_createDirAll (d : Disk) (path : String) : d.Spares (d.createDirAll path).2 := by
  unfold createDirAll
  split
  · exact .refl d
  · exact spares_createDirWith (spares_createParents _) d path

end Disk

end Songline
