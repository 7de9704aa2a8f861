import Mathlib.Logic.Relation
import Songline.Proofs.DraftSteps

set_option autoImplicit false

namespace Songline.Draft

def withStock (d : Draft) (instrument : Instrument) : Draft :=
  let (id, d) := d.create instrument instrument.name
  { d with stock := (instrument.name, id) :: d.stock }

def withAlias (d : Draft) (instrument : Instrument) (nick : String) : Draft :=
  let (id, d) := d.create instrument nick
  { d with nicknames := (nick, [id]) :: d.nicknames }

def withGroup (d : Draft) (nick : String) (ids : List PartId) : Draft :=
  { d with nicknames := (nick, ids) :: d.nicknames }

/-- A name is filed for a part. -/
def Listed (d : Draft) (id : PartId) : Prop :=
  (∃ name, (name, id) ∈ d.stock) ∨ ∃ nick ids, (nick, ids) ∈ d.nicknames ∧ id ∈ ids

/-- A name is filed that was free in its table. -/
inductive Files (d : Draft) : Draft → Prop
  | stock {instrument : Instrument} (known : instrument ∈ Catalogue.all)
      (free : d.stock.lookup instrument.name = none) : Files d (d.withStock instrument)
  | nick {instrument : Instrument} {nick : String} (known : instrument ∈ Catalogue.all)
      (free : d.nicknames.lookup nick = none) : Files d (d.withAlias instrument nick)
  | group {nick : String} {ids : List PartId} (listed : ∀ id ∈ ids, d.Listed id)
      (free : d.nicknames.lookup nick = none) : Files d (d.withGroup nick ids)

abbrev FilesAll : Draft → Draft → Prop := Relation.ReflTransGen Files

theorem Listed.files {d d' : Draft} {id : PartId} (listed : d.Listed id) (filing : Files d d') :
    d'.Listed id := by
  rcases listed with ⟨name, member⟩ | ⟨nick, ids, member, inside⟩
  · cases filing with
    | stock => exact Or.inl ⟨name, List.mem_cons_of_mem _ member⟩
    | nick | group => exact Or.inl ⟨name, member⟩
  · cases filing with
    | stock => exact Or.inr ⟨nick, ids, member, inside⟩
    | nick | group => exact Or.inr ⟨nick, ids, List.mem_cons_of_mem _ member, inside⟩

theorem Listed.filesAll {d d' : Draft} {id : PartId} (listed : d.Listed id)
    (all : FilesAll d d') : d'.Listed id := by
  induction all with
  | refl => exact listed
  | tail _ last ih => exact ih.files last

theorem mem_of_lookup {α β : Type} [BEq α] [LawfulBEq α] {entries : List (α × β)} {key : α}
    {value : β} (found : entries.lookup key = some value) : (key, value) ∈ entries := by
  obtain ⟨before, after, rfl, -⟩ := List.lookup_eq_some_iff.mp found
  exact List.mem_append_right _ List.mem_cons_self

theorem mem_of_find? {name : String} {instrument : Instrument}
    (found : Catalogue.find? name = some instrument) : instrument ∈ Catalogue.all :=
  List.mem_of_find?_eq_some found

/-- A name that is looked up is filed then. -/
theorem filesAll_resolve {d d' : Draft} {name : String} {ids : List PartId}
    (done : d.resolve name = .ok (ids, d')) : FilesAll d d' ∧ ∀ id ∈ ids, d'.Listed id := by
  unfold resolve at done
  split at done
  · rename_i known found
    cases done
    exact ⟨.refl, fun id inside => Or.inr ⟨name, ids, mem_of_lookup found, inside⟩⟩
  · split at done
    · cases done
    · rename_i instrument found
      split at done
      · rename_i id filed
        cases done
        refine ⟨.refl, fun other inside => Or.inl ⟨instrument.name, ?_⟩⟩
        rw [List.mem_singleton.mp inside]
        exact mem_of_lookup filed
      · rename_i free
        cases done
        refine ⟨.single (.stock (mem_of_find? found) free), fun other inside => Or.inl ?_⟩
        rw [List.mem_singleton.mp inside]
        exact ⟨instrument.name, List.mem_cons_self⟩

theorem filesAll_resolveAll (names : List String) {d d' : Draft} {ids : List PartId}
    (done : d.resolveAll names = .ok (ids, d')) : FilesAll d d' ∧ ∀ id ∈ ids, d'.Listed id := by
  induction names generalizing d ids with
  | nil =>
      cases done
      exact ⟨.refl, fun id inside => absurd inside List.not_mem_nil⟩
  | cons name names ih =>
      rw [resolveAll] at done
      split at done
      · cases done
      · rename_i first next resolved
        split at done
        · cases done
        · rename_i more after rest
          cases done
          obtain ⟨filed, listed⟩ := filesAll_resolve resolved
          obtain ⟨filedMore, listedMore⟩ := ih rest
          refine ⟨filed.trans filedMore, fun id inside => ?_⟩
          rcases List.mem_append.mp inside with here | later
          · exact (listed id here).filesAll filedMore
          · exact listedMore id later

theorem filesAll_resolveAlias {d d' : Draft} {name nick : String} {id : PartId}
    (done : d.resolveAlias name nick = .ok (id, d')) : FilesAll d d' ∧ d'.Listed id := by
  unfold resolveAlias at done
  split at done
  · cases done
  · rename_i instrument found
    split at done
    · rename_i known filed
      split at done
      · cases done
        exact ⟨.refl, Or.inr ⟨nick, [id], mem_of_lookup filed, List.mem_cons_self⟩⟩
      · cases done
    · cases done
    · rename_i free
      cases done
      exact ⟨.single (.nick (mem_of_find? found) free),
        Or.inr ⟨nick, _, List.mem_cons_self, List.mem_cons_self⟩⟩

theorem filesAll_nickname {d d' : Draft} {nick : String} {ids : List PartId}
    (listed : ∀ id ∈ ids, d.Listed id) (done : d.nickname nick ids = .ok d') : FilesAll d d' := by
  unfold nickname at done
  split at done
  · split at done
    · cases done
      exact .refl
    · cases done
  · rename_i free
    cases done
    exact .single (.group listed free)

/-- A declaration files names, and selects parts that have one. -/
theorem filesAll_declare {d d' : Draft} {decl : PartDecl} (done : d.declare decl = .ok d') :
    ∃ filed ids, FilesAll d filed ∧ (∀ id ∈ ids, filed.Listed id) ∧ d' = filed.select ids := by
  unfold declare at done
  split at done
  · split at done
    · cases done
    · rename_i id next resolved
      cases done
      obtain ⟨filed, listed⟩ := filesAll_resolveAlias resolved
      refine ⟨next, [id], filed, fun other inside => ?_, rfl⟩
      rw [List.mem_singleton.mp inside]
      exact listed
  · split at done
    · cases done
    · rename_i ids next resolved
      obtain ⟨filed, listed⟩ := filesAll_resolveAll _ resolved
      split at done
      · cases done
        exact ⟨next, ids, filed, listed, rfl⟩
      · split at done
        · cases done
        · rename_i named nicknamed
          cases done
          have grouped := filesAll_nickname listed nicknamed
          have kept : ∀ id ∈ ids, named.Listed id :=
            fun id inside => (listed id inside).filesAll grouped
          exact ⟨named, ids, filed.trans grouped, kept, rfl⟩

section

variable {R : Draft → Draft → Prop}

theorem FilesAll.chain (refl : ∀ d, R d d) (trans : ∀ {a b c}, R a b → R b c → R a c)
    (files : ∀ {d d'}, Files d d' → R d d') {d d' : Draft} (all : FilesAll d d') : R d d' := by
  induction all with
  | refl => exact refl d
  | tail _ last ih => exact trans ih (files last)

/-- A relation that filing, selecting, settings and actions lead along is one that every step of
lines leads along. -/
theorem Steps.of_files (refl : ∀ d, R d d) (trans : ∀ {a b c}, R a b → R b c → R a c)
    (files : ∀ {d d'}, Files d d' → R d d')
    (select : ∀ {d ids}, (∀ id ∈ ids, d.Listed id) → R d (d.select ids))
    (setEverywhere : ∀ {d d' s}, d.setEverywhere s = .ok d' → R d d')
    (act : ∀ {d d' a}, d.act a = .ok d' → R d d') : Steps R where
  refl := refl
  trans := trans
  declare _ done := by
    obtain ⟨filed, ids, all, listed, rfl⟩ := filesAll_declare done
    exact trans (all.chain refl trans files) (select listed)
  setEverywhere := setEverywhere
  act := act
  deselect d := select fun _ member => absurd member List.not_mem_nil

end

end Songline.Draft
