import Songline.Proofs.LeadingDeclaration
import Songline.Proofs.NameMeaning

set_option autoImplicit false

/- A declaration made again. What its names stand for has been filed by the first time, and its
parts have been selected and have no voices to close, so that nothing is left to do. The exception
is a group that is given the name of one of its members: a nickname is looked up before the stock
name that the member was found by, the name now stands for the whole group, and the group is
refused. -/
namespace Songline.Draft

/-- Names are filed, and these are the parts that they stand for, one after another. -/
inductive KnownAll (d : Draft) : List String → List PartId → Prop
  | nil : KnownAll d [] []
  | cons {name : String} {names : List String} {ids more : List PartId} (first : Known d name ids)
      (rest : KnownAll d names more) : KnownAll d (name :: names) (ids ++ more)

/-- What a name stands for hangs on the tables alone. -/
theorem Known.congr {d d' : Draft} {name : String} {ids : List PartId} (known : Known d name ids)
    (stock : d'.stock = d.stock) (nicknames : d'.nicknames = d.nicknames) :
    Known d' name ids := by
  cases known with
  | nickname found => exact .nickname (nicknames ▸ found)
  | stock free found filed => exact .stock (nicknames ▸ free) found (stock ▸ filed)

/-- A name stands for some parts only. -/
theorem Known.unique {d : Draft} {name : String} {ids others : List PartId}
    (first : Known d name ids) (second : Known d name others) : ids = others := by
  have same := first.resolve.symm.trans second.resolve
  cases same
  rfl

/-- A name that is no nickname stands for one part. -/
theorem Known.single_of_free {d : Draft} {name : String} {ids : List PartId}
    (known : Known d name ids) (free : d.nicknames.lookup name = none) : ∃ id, ids = [id] := by
  cases known with
  | nickname found =>
      rw [free] at found
      cases found
  | stock _ _ _ => exact ⟨_, rfl⟩

/-- No name but its own stands for something else when a group gets a name. -/
theorem Known.withGroup {d : Draft} {name nick : String} {ids : List PartId}
    (known : Known d name ids) (group : List PartId) (other : name ≠ nick) :
    Known (d.withGroup nick group) name ids := by
  have unaffected : (d.withGroup nick group).nicknames.lookup name = d.nicknames.lookup name := by
    rw [Draft.withGroup, List.lookup_cons, beq_eq_false_iff_ne.mpr other]
  cases known with
  | nickname found => exact .nickname (unaffected.trans found)
  | stock free found filed => exact .stock (unaffected.trans free) found filed

theorem known_withGroup_self (d : Draft) (nick : String) (group : List PartId) :
    Known (d.withGroup nick group) nick group :=
  .nickname List.lookup_cons_self

/-- Looking a name up leaves the nicknames alone. -/
theorem nicknames_of_resolve {d d' : Draft} {name : String} {ids : List PartId}
    (done : d.resolve name = .ok (ids, d')) : d'.nicknames = d.nicknames := by
  unfold Draft.resolve at done
  split at done
  · cases done
    rfl
  · split at done
    · cases done
    · split at done <;> cases done <;> rfl

namespace KnownAll

variable {d d' : Draft} {names : List String} {ids : List PartId}

theorem congr (known : KnownAll d names ids) (stock : d'.stock = d.stock)
    (nicknames : d'.nicknames = d.nicknames) : KnownAll d' names ids := by
  induction known with
  | nil => exact .nil
  | cons first _ ih => exact .cons (first.congr stock nicknames) ih

/-- Names that are filed are looked up without filing anything. -/
theorem resolveAll (known : KnownAll d names ids) : d.resolveAll names = .ok (ids, d) := by
  induction known with
  | nil => rfl
  | cons first _ ih => simp only [Draft.resolveAll, first.resolve, ih]

/-- The parts of every name are among the parts of all. -/
theorem sublist_of_mem {name : String} (known : KnownAll d names ids) (member : name ∈ names) :
    ∃ own, Known d name own ∧ own.Sublist ids := by
  induction known with
  | nil => exact absurd member List.not_mem_nil
  | @cons first names own more here _ ih =>
      rcases List.mem_cons.mp member with rfl | later
      · exact ⟨own, here, List.sublist_append_left own more⟩
      · obtain ⟨other, there, inside⟩ := ih later
        exact ⟨other, there, inside.trans (List.sublist_append_right own more)⟩

/-- A group whose name is not among its members' changes nothing for them. -/
theorem withGroup {nick : String} (known : KnownAll d names ids) (group : List PartId)
    (other : nick ∉ names) : KnownAll (d.withGroup nick group) names ids := by
  induction known with
  | nil => exact .nil
  | cons first _ ih =>
      rw [List.mem_cons, not_or] at other
      exact .cons (first.withGroup group (Ne.symm other.1)) (ih other.2)

/-- A stock name that is given to a group stands for the group from then on, wherever it is one of
the names. -/
theorem overshadowed {nick : String} (known : KnownAll d names ids) (group : List PartId)
    (free : d.nicknames.lookup nick = none) :
    ∃ after, KnownAll (d.withGroup nick group) names after ∧
      after.length + names.count nick = ids.length + names.count nick * group.length := by
  induction known with
  | nil => exact ⟨[], .nil, by simp⟩
  | @cons name names own more first _ ih =>
      obtain ⟨after, knownAfter, counted⟩ := ih
      by_cases same : name = nick
      · subst same
        obtain ⟨id, rfl⟩ := first.single_of_free free
        refine ⟨group ++ after, .cons (known_withGroup_self d name group) knownAfter, ?_⟩
        rw [List.count_cons_self, List.length_append, List.length_append, List.length_singleton,
          Nat.add_mul, Nat.one_mul]
        omega
      · refine ⟨own ++ after, .cons (first.withGroup group same) knownAfter, ?_⟩
        rw [List.count_cons_of_ne same, List.length_append, List.length_append]
        omega

/-- A group of one part stands for what its name has stood for. -/
theorem withGroup_single {nick : String} {id : PartId} (known : KnownAll d names ids)
    (own : Known d nick [id]) : KnownAll (d.withGroup nick [id]) names ids := by
  induction known with
  | nil => exact .nil
  | @cons name names parts more first _ ih =>
      refine .cons ?_ ih
      by_cases same : name = nick
      · subst same
        rw [first.unique own]
        exact known_withGroup_self d name [id]
      · exact first.withGroup [id] same

end KnownAll

/-- Names that have been looked up are filed. -/
theorem knownAll_of_resolveAll (names : List String) {d d' : Draft} {ids : List PartId}
    (done : d.resolveAll names = .ok (ids, d')) :
    KnownAll d' names ids ∧ d'.nicknames = d.nicknames := by
  induction names generalizing d ids with
  | nil =>
      cases done
      exact ⟨.nil, rfl⟩
  | cons name names ih =>
      rw [resolveAll] at done
      split at done
      · cases done
      · rename_i own next resolved
        split at done
        · cases done
        · rename_i more last rest
          cases done
          obtain ⟨known, same⟩ := ih rest
          have kept := keepsNames_filesAll (filesAll_resolveAll names rest).1
          -- no nickname is filed on the way, so the first name cannot have become another one
          rcases (known_of_resolve resolved).later kept with still | ⟨free, others, taken⟩
          · exact ⟨.cons still known, same.trans (nicknames_of_resolve resolved)⟩
          · rw [same, free] at taken
            cases taken

/-- A group is given the name of one of its members: the name was no nickname before the
declaration, and is that of several parts after it. -/
structure Overshadows (d d' : Draft) (decl : PartDecl) (nick : String) : Prop where
  given : decl.nick = some nick
  member : nick ∈ decl.names
  free : d.nicknames.lookup nick = none
  several : ∃ ids, d'.nicknames.lookup nick = some ids ∧ 1 < ids.length

/-- How a declaration ends that has just been made: as it did, or with its alias refused. -/
structure Redeclared (d d' : Draft) (decl : PartDecl) (again : Except ScoreError Draft) : Prop where
  same : (∀ nick, ¬ Overshadows d d' decl nick) → again = .ok d'
  refused : ∀ nick, Overshadows d d' decl nick → again = .error (.aliasInUse nick)

namespace Redeclared

variable {d d' : Draft} {decl : PartDecl} {outcome : Except ScoreError Draft}

theorem again (same : outcome = .ok d') (never : ∀ nick, ¬ Overshadows d d' decl nick) :
    Redeclared d d' decl outcome :=
  ⟨fun _ => same, fun nick overshadows => absurd overshadows (never nick)⟩

theorem refusal {nick : String} (refused : outcome = .error (.aliasInUse nick))
    (overshadows : Overshadows d d' decl nick) : Redeclared d d' decl outcome := by
  refine ⟨fun never => absurd overshadows (never nick), fun other also => ?_⟩
  have same := also.given.symm.trans overshadows.given
  cases same
  exact refused

end Redeclared

/-- Parts without open voices are selected once and for all. -/
theorem select_select {d : Draft} (ordered : Ordered d) (ids : List PartId) :
    (d.select ids).select ids = d.select ids := by
  have closed : ∀ p ∈ (d.select ids).parts, p.voices = none := by
    intro p member
    obtain ⟨q, there, rfl⟩ := List.mem_map.mp member
    exact ordered.closed_select there
  have still : (d.select ids).parts.map
      (fun p => if (d.select ids).current.contains p.id then p.closeVoices else p) =
        (d.select ids).parts := by
    refine (List.map_congr_left fun p member => ?_).trans (List.map_id _)
    split
    · simp only [Part.closeVoices, closed p member, id_eq]
    · rfl
  rw [select, still]
  rfl

theorem Ordered.filesAll {d d' : Draft} (ordered : Ordered d) (all : FilesAll d d') :
    Ordered d' :=
  all.chain (R := fun d d' => Ordered d → Ordered d') (fun _ kept => kept)
    (fun first second kept => second (first kept)) (fun filing kept => kept.files filing) ordered

theorem resolveAlias_again {d next : Draft} {name nick : String} {id : PartId}
    (done : d.resolveAlias name nick = .ok (id, next)) (ids : List PartId) :
    (next.select ids).resolveAlias name nick = .ok (id, next.select ids) ∧
      next.nicknames.lookup nick = some [id] := by
  unfold Draft.resolveAlias at done
  cases found : Catalogue.find? name with
  | none =>
      rw [found] at done
      cases done
  | some instrument =>
      have known : next.nicknames.lookup nick = some [id] ∧
          next.parts[id.index]?.map (·.player.instrument) = some instrument.name := by
        simp only [found] at done
        split at done
        · rename_i own filed
          split at done
          · rename_i same
            cases done
            exact ⟨filed, same⟩
          · cases done
        · cases done
        · cases done
          refine ⟨List.lookup_cons_self, ?_⟩
          simp [create, Part.new]
      refine ⟨?_, known.1⟩
      simp only [Draft.resolveAlias, found, select_nicknames, known.1, instrument_select, known.2,
        ↓reduceIte]

theorem declare_plain (d : Draft) (names : List String) :
    d.declare ⟨names, none⟩ =
      match d.resolveAll names with
      | .error e => .error e
      | .ok (ids, next) => .ok (next.select ids) := by
  unfold declare
  split
  · rename_i name nick _ given
    cases given
  · rfl

theorem declare_alias (d : Draft) (name nick : String) :
    d.declare ⟨[name], some nick⟩ =
      match d.resolveAlias name nick with
      | .error e => .error e
      | .ok (id, next) => .ok (next.select [id]) := rfl

/-- A declaration without an alias finds everything filed and selected. -/
theorem redeclared_plain {d d' : Draft} {names : List String} (ordered : Ordered d)
    (done : d.declare ⟨names, none⟩ = .ok d') : d'.declare ⟨names, none⟩ = .ok d' := by
  rw [declare_plain] at done
  cases resolved : d.resolveAll names with
  | error e =>
      rw [resolved] at done
      cases done
  | ok result =>
      obtain ⟨ids, next⟩ := result
      rw [resolved] at done
      cases done
      have orderedNext := ordered.filesAll (filesAll_resolveAll names resolved).1
      have known : KnownAll (next.select ids) names ids :=
        (knownAll_of_resolveAll names resolved).1.congr rfl rfl
      rw [declare_plain, known.resolveAll]
      exact congrArg Except.ok (select_select orderedNext ids)

/-- An alias of one part goes on being that, whatever name it is. -/
theorem redeclared_alias {d d' : Draft} {name nick : String} (ordered : Ordered d)
    (done : d.declare ⟨[name], some nick⟩ = .ok d') :
    d'.declare ⟨[name], some nick⟩ = .ok d' ∧ ∃ id, d'.nicknames.lookup nick = some [id] := by
  rw [declare_alias] at done
  cases resolved : d.resolveAlias name nick with
  | error e =>
      rw [resolved] at done
      cases done
  | ok result =>
      obtain ⟨id, next⟩ := result
      rw [resolved] at done
      cases done
      have orderedNext := ordered.filesAll (filesAll_resolveAlias resolved).1
      obtain ⟨again, filed⟩ := resolveAlias_again resolved [id]
      refine ⟨?_, id, filed⟩
      rw [declare_alias, again]
      exact congrArg Except.ok (select_select orderedNext [id])

/-- A group that has been filed and selected is declared again: what its names stand for decides. -/
theorem declare_selected {filed : Draft} {names : List String} {nick : String}
    {group ids : List PartId} (ordered : Ordered filed) (several : names.length ≠ 1)
    (found : filed.nicknames.lookup nick = some group) (known : KnownAll filed names ids) :
    (filed.select group).declare ⟨names, some nick⟩ =
      if group = ids then .ok (filed.select group) else .error (.aliasInUse nick) := by
  have knownSelected : KnownAll (filed.select group) names ids := known.congr rfl rfl
  rw [declare_group _ nick several, knownSelected.resolveAll]
  simp only [nickname, select_nicknames, found]
  by_cases same : group = ids
  · subst same
    simp only [↓reduceIte]
    exact congrArg Except.ok (select_select ordered group)
  · simp only [if_neg same]
    rfl

/-- A group is filed under a name that was free, and declared again. -/
theorem redeclared_filed {d next : Draft} {names : List String} {nick : String}
    {ids : List PartId} (ordered : Ordered next) (several : names.length ≠ 1)
    (known : KnownAll next names ids) (listed : ∀ id ∈ ids, next.Listed id)
    (free : d.nicknames.lookup nick = none) (unchanged : next.nicknames = d.nicknames) :
    Redeclared d ((next.withGroup nick ids).select ids) ⟨names, some nick⟩
      (((next.withGroup nick ids).select ids).declare ⟨names, some nick⟩) := by
  have freeNext : next.nicknames.lookup nick = none := unchanged ▸ free
  have orderedFiled := ordered.files (.group listed freeNext)
  have found : (next.withGroup nick ids).nicknames.lookup nick = some ids := List.lookup_cons_self
  by_cases member : nick ∈ names
  · obtain ⟨own, knownOwn, inside⟩ := known.sublist_of_mem member
    obtain ⟨id, rfl⟩ := knownOwn.single_of_free freeNext
    have named : 1 ≤ ids.length := inside.length_le
    by_cases single : ids.length = 1
    · -- the member is the whole group, which its name has stood for all along
      have whole : [id] = ids := inside.eq_of_length single.symm
      subst whole
      have again := declare_selected orderedFiled several found (known.withGroup_single knownOwn)
      rw [if_pos rfl] at again
      refine .again again fun other overshadows => ?_
      obtain ⟨given, -, -, group, filedGroup, more⟩ := overshadows
      cases given
      have same : some group = some [id] := filedGroup.symm.trans found
      cases same
      exact absurd more (Nat.lt_irrefl 1)
    · obtain ⟨after, knownAfter, counted⟩ := known.overshadowed ids freeNext
      have mentioned : 0 < names.count nick := List.count_pos_iff.mpr member
      have differ : ids ≠ after := by
        intro same
        rw [← same] at counted
        have equal : names.count nick * 1 = names.count nick * ids.length := by omega
        exact single (Nat.eq_of_mul_eq_mul_left mentioned equal).symm
      have again := declare_selected orderedFiled several found knownAfter
      rw [if_neg differ] at again
      exact .refusal again ⟨rfl, member, free, ids, found, by omega⟩
  · have again := declare_selected orderedFiled several found (known.withGroup ids member)
    rw [if_pos rfl] at again
    refine .again again fun other overshadows => ?_
    obtain ⟨given, inside, -, -⟩ := overshadows
    cases given
    exact member inside

theorem redeclared_group {d d' : Draft} {names : List String} {nick : String}
    (ordered : Ordered d) (several : names.length ≠ 1)
    (done : d.declare ⟨names, some nick⟩ = .ok d') :
    Redeclared d d' ⟨names, some nick⟩ (d'.declare ⟨names, some nick⟩) := by
  rw [declare_group d nick several] at done
  cases resolved : d.resolveAll names with
  | error e =>
      rw [resolved] at done
      cases done
  | ok result =>
      obtain ⟨ids, next⟩ := result
      obtain ⟨filed, listed⟩ := filesAll_resolveAll names resolved
      obtain ⟨known, unchanged⟩ := knownAll_of_resolveAll names resolved
      have orderedNext := ordered.filesAll filed
      simp only [resolved, nickname] at done
      cases taken : next.nicknames.lookup nick with
      | some group =>
          -- the group has its name already, so nothing is filed either time
          simp only [taken] at done
          split at done
          · rename_i same
            cases done
            subst same
            have again := declare_selected orderedNext several taken known
            rw [if_pos rfl] at again
            refine .again again fun other overshadows => ?_
            obtain ⟨given, -, free, -⟩ := overshadows
            cases given
            rw [← unchanged, taken] at free
            cases free
          · cases done
      | none =>
          simp only [taken] at done
          cases done
          exact redeclared_filed orderedNext several known listed (unchanged ▸ taken) unchanged

theorem redeclared {d d' : Draft} {decl : PartDecl} (ordered : Ordered d)
    (done : d.declare decl = .ok d') : Redeclared d d' decl (d'.declare decl) := by
  obtain ⟨names, nick⟩ := decl
  cases nick with
  | none =>
      refine .again (redeclared_plain ordered done) fun nick overshadows => ?_
      cases overshadows.given
  | some nick =>
      by_cases single : names.length = 1
      · obtain ⟨name, rfl⟩ := List.length_eq_one_iff.mp single
        obtain ⟨again, id, filed⟩ := redeclared_alias ordered done
        refine .again again fun other overshadows => ?_
        obtain ⟨given, -, -, group, filedGroup, more⟩ := overshadows
        cases given
        rw [filed] at filedGroup
        cases filedGroup
        exact absurd more (Nat.lt_irrefl 1)
      · exact redeclared_group ordered single done

/-- A line that is a declaration alone does what the declaration does, as a part and as a score. -/
theorem evaluate_declaration (d : Draft) {entry : Entry} (decl : PartDecl)
    (declares : entry ≠ .musicData) : d.evaluate entry [.part decl] = d.declare decl := by
  have alone : ∀ d : Draft, applyAll [.part decl] d = d.declare decl := by
    intro d
    rw [applyAll_singleton, apply]
  have short : ¬ (Form.expandedLengths [.part decl]).toNat > maxExpanded := by
    simp only [Form.expandedLengths, Form.expandedLength]
    decide
  cases entry with
  | musicData => exact absurd rfl declares
  | part => simp only [evaluate, short, applyLine, alone, ↓reduceIte]
  | score => simp only [evaluate, short, applyLine, alone, declare_deselect, ↓reduceIte]

/-- A declaration that succeeds does so again and changes nothing, just as long as it does not give
a group of parts the name of one of its members. That is refused the second time. -/
theorem declared_again_iff {d d' : Draft} {entry : Entry} {decl : PartDecl}
    (reached : Reachable d) (declares : entry ≠ .musicData)
    (done : d.evaluate entry [.part decl] = .ok d') :
    (d'.evaluate entry [.part decl] = .ok d' ↔ ∀ nick, ¬ Overshadows d d' decl nick) ∧
      ∀ nick, Overshadows d d' decl nick →
        d'.evaluate entry [.part decl] = .error (.aliasInUse nick) := by
  rw [evaluate_declaration d decl declares] at done
  rw [evaluate_declaration d' decl declares]
  obtain ⟨same, refused⟩ := redeclared reached.ordered done
  refine ⟨⟨fun again nick overshadows => ?_, same⟩, refused⟩
  rw [refused nick overshadows] at again
  cases again

def pianoInVoices : List Form :=
  [.part ⟨["piano"], none⟩, .voice 1, .note ⟨'c', 0, none⟩, .voice 2]

theorem pair_declared_again :
    let decl : PartDecl := ⟨["violin", "piano"], some "pair"⟩
    ∃ d d', empty.evaluate .part pianoInVoices = .ok d ∧ Reachable d ∧
      Entry.score ≠ .musicData ∧ d.evaluate .score [.part decl] = .ok d' ∧
      d'.current = [⟨1⟩, ⟨0⟩] ∧ d'.evaluate .score [.part decl] = .ok d' := by
  intro decl
  let d := ((empty.evaluate .part pianoInVoices).toOption).getD empty
  let d' := ((d.evaluate .score [.part decl]).toOption).getD empty
  have begun : empty.evaluate .part pianoInVoices = .ok d := ok_getD (by decide +kernel) empty
  have done : d.evaluate .score [.part decl] = .ok d' := ok_getD (by decide +kernel) empty
  have selected : d'.current = [⟨1⟩, ⟨0⟩] := by
    decide +kernel
  have reached : Reachable d := .evaluate .empty begun
  have declares : Entry.score ≠ .musicData := by
    decide
  have apart : ∀ nick, ¬ Overshadows d d' decl nick := by
    rintro nick ⟨given, member, -, -⟩
    cases given
    exact absurd member (by decide)
  obtain ⟨again, -⟩ := declared_again_iff reached declares done
  exact ⟨d, d', begun, reached, declares, done, selected, again.mpr apart⟩

/-- A group that is named after its first member. The same text does not succeed twice. -/
theorem piano_group_refused_again :
    let line : Passage := ⟨.part, "piano/violin \"piano\":"⟩
    let decl : PartDecl := ⟨["piano", "violin"], some "piano"⟩
    (empty.written [line]).length = 1 ∧ (empty.written [line, line]).length = 1 ∧
      ∃ d', empty.evaluate .part [.part decl] = .ok d' ∧ d'.current = [⟨0⟩, ⟨1⟩] ∧
        d'.evaluate .part [.part decl] = .error (.aliasInUse "piano") := by
  intro line decl
  have once : (empty.written [line]).length = 1 := by
    decide +kernel
  have twice : (empty.written [line, line]).length = 1 := by
    decide +kernel
  let d' := ((empty.declare decl).toOption).getD empty
  have done : empty.declare decl = .ok d' := ok_getD (by decide +kernel) empty
  have selected : d'.current = [⟨0⟩, ⟨1⟩] := by
    decide +kernel
  have filed : d'.nicknames.lookup "piano" = some [⟨0⟩, ⟨1⟩] := by
    decide +kernel
  have overshadows : Overshadows empty d' decl "piano" :=
    ⟨rfl, List.mem_cons_self, rfl, _, filed, by decide⟩
  have again := (redeclared ordered_empty done).refused "piano" overshadows
  refine ⟨once, twice, d', ?_, selected, ?_⟩
  · exact (evaluate_declaration empty decl (by decide)).trans done
  · exact (evaluate_declaration d' decl (by decide)).trans again

end Songline.Draft
