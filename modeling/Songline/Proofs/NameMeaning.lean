import Songline.Proofs.Passages

set_option autoImplicit false

namespace Songline.Draft

/-- Everything that is filed stays as it is. -/
structure KeepsNames (d d' : Draft) : Prop where
  stock : ∀ name id, d.stock.lookup name = some id → d'.stock.lookup name = some id
  nicknames : ∀ nick ids, d.nicknames.lookup nick = some ids → d'.nicknames.lookup nick = some ids

theorem KeepsNames.refl (d : Draft) : KeepsNames d d :=
  ⟨fun _ _ found => found, fun _ _ found => found⟩

theorem KeepsNames.trans {a b c : Draft} (first : KeepsNames a b) (second : KeepsNames b c) :
    KeepsNames a c where
  stock name id found := second.stock name id (first.stock name id found)
  nicknames nick ids found := second.nicknames nick ids (first.nicknames nick ids found)

theorem KeepsNames.of_eq {d d' : Draft} (stock : d'.stock = d.stock)
    (nicknames : d'.nicknames = d.nicknames) : KeepsNames d d' := by
  refine ⟨?_, ?_⟩
  · rw [stock]
    exact fun _ _ found => found
  · rw [nicknames]
    exact fun _ _ found => found

/-- What is filed under a free name hides nothing. -/
theorem lookup_of_free {β : Type} {entries : List (String × β)} {free name : String}
    {other value : β} (unused : entries.lookup free = none)
    (found : entries.lookup name = some value) :
    ((free, other) :: entries).lookup name = some value := by
  have differ : name ≠ free := by
    intro same
    rw [same, unused] at found
    cases found
  rw [List.lookup_cons, beq_eq_false_iff_ne.mpr differ]
  exact found

theorem keepsNames_files {d d' : Draft} (filing : Files d d') : KeepsNames d d' := by
  cases filing with
  | stock known free => exact ⟨fun _ _ found => lookup_of_free free found, fun _ _ found => found⟩
  | nick known free => exact ⟨fun _ _ found => found, fun _ _ found => lookup_of_free free found⟩
  | group listed free => exact ⟨fun _ _ found => found, fun _ _ found => lookup_of_free free found⟩

theorem keepsNames_filesAll {d d' : Draft} (all : FilesAll d d') : KeepsNames d d' :=
  all.chain KeepsNames.refl KeepsNames.trans keepsNames_files

theorem steps_keepsNames : Steps KeepsNames := by
  refine Steps.of_files KeepsNames.refl KeepsNames.trans keepsNames_files ?_ ?_ ?_
  · exact fun _ => KeepsNames.of_eq rfl rfl
  · intro d d' s done
    unfold setEverywhere at done
    split at done
    · cases done
    · cases done
      exact KeepsNames.of_eq rfl rfl
  · intro d d' a done
    have same := sameTables_act done
    exact KeepsNames.of_eq same.stock same.nicknames

/-- Lines are evaluated, one after another. -/
abbrev Lines : Draft → Draft → Prop :=
  Relation.ReflTransGen fun d d' => ∃ entry forms, d.evaluate entry forms = .ok d'

theorem keepsNames_lines {d d' : Draft} (lines : Lines d d') : KeepsNames d d' := by
  induction lines with
  | refl => exact KeepsNames.refl d
  | tail _ last ih =>
      obtain ⟨entry, forms, done⟩ := last
      exact ih.trans (steps_keepsNames.evaluate done)

/-- A name is filed for some parts: as a nickname, or else under its stock instrument. -/
inductive Known (d : Draft) (name : String) : List PartId → Prop
  | nickname {ids : List PartId} (found : d.nicknames.lookup name = some ids) : Known d name ids
  | stock {instrument : Instrument} {id : PartId} (free : d.nicknames.lookup name = none)
      (found : Catalogue.find? name = some instrument)
      (filed : d.stock.lookup instrument.name = some id) : Known d name [id]

theorem Known.resolve {d : Draft} {name : String} {ids : List PartId} (known : Known d name ids) :
    d.resolve name = .ok (ids, d) := by
  cases known with
  | nickname found => simp only [Draft.resolve, found]
  | stock free found filed => simp only [Draft.resolve, free, found, filed]

/-- A name that has been resolved is filed. -/
theorem known_of_resolve {d d' : Draft} {name : String} {ids : List PartId}
    (done : d.resolve name = .ok (ids, d')) : Known d' name ids := by
  unfold Draft.resolve at done
  split at done
  · rename_i found
    cases done
    exact .nickname found
  · rename_i free
    split at done
    · cases done
    · rename_i instrument found
      split at done
      · rename_i id filed
        cases done
        exact .stock free found filed
      · cases done
        exact .stock free found List.lookup_cons_self

/-- A filed name stays filed, and means something else only as a new nickname. -/
theorem Known.later {d d' : Draft} {name : String} {ids : List PartId} (known : Known d name ids)
    (kept : KeepsNames d d') :
    Known d' name ids ∨
      d.nicknames.lookup name = none ∧ ∃ others, d'.nicknames.lookup name = some others := by
  cases known with
  | nickname found => exact Or.inl (.nickname (kept.nicknames name ids found))
  | @stock instrument id free found filed =>
      cases taken : d'.nicknames.lookup name with
      | none => exact Or.inl (.stock taken found (kept.stock instrument.name id filed))
      | some others => exact Or.inr ⟨free, others, rfl⟩

/-- A declaration of a single name selects what the name stands for. -/
theorem declare_single (d : Draft) (name : String) :
    d.declare ⟨[name], none⟩ = (d.resolve name).map fun (ids, next) => next.select ids := by
  simp only [declare, resolveAll]
  rcases d.resolve name with e | ⟨ids, next⟩
  · rfl
  · simp only [List.append_nil]
    rfl

/-- A declaration of a name selects these parts. -/
def Means (d : Draft) (name : String) (ids : List PartId) : Prop :=
  ∃ d', d.declare ⟨[name], none⟩ = .ok d' ∧ d'.current = ids

theorem Known.declare {d : Draft} {name : String} {ids : List PartId} (known : Known d name ids) :
    d.declare ⟨[name], none⟩ = .ok (d.select ids) := by
  rw [declare_single, known.resolve]
  rfl

theorem Known.means_iff {d : Draft} {name : String} {ids : List PartId} (known : Known d name ids)
    (others : List PartId) : d.Means name others ↔ distinct ids = others := by
  constructor
  · rintro ⟨d', done, selected⟩
    rw [known.declare] at done
    cases done
    exact selected
  · rintro rfl
    exact ⟨d.select ids, known.declare, rfl⟩

theorem resolveAll_error (names : List String) {d : Draft} {e : ScoreError}
    (failed : d.resolveAll names = .error e) : ∃ name ∈ names, e = .unknownInstrument name := by
  induction names generalizing d with
  | nil => cases failed
  | cons name names ih =>
      rw [resolveAll] at failed
      split at failed
      · rename_i fault unresolved
        cases failed
        refine ⟨name, List.mem_cons_self, ?_⟩
        unfold Draft.resolve at unresolved
        split at unresolved
        · cases unresolved
        · split at unresolved
          · cases unresolved
            rfl
          · split at unresolved <;> cases unresolved
      · split at failed
        · rename_i fault rest
          cases failed
          obtain ⟨other, member, same⟩ := ih rest
          exact ⟨other, List.mem_cons_of_mem _ member, same⟩
        · cases failed

/-- How a declaration ends that gives an alias which is a nickname already: it selects the parts of
the nickname, or it is refused. -/
inductive Refiled (d : Draft) (names : List String) (nick : String) (known : List PartId) :
    Except ScoreError Draft → Prop
  | same {d' : Draft} (selected : d'.current = distinct known) : Refiled d names nick known (.ok d')
  | inUse : Refiled d names nick known (.error (.aliasInUse nick))
  | unknown {name : String} (member : name ∈ names) :
      Refiled d names nick known (.error (.unknownInstrument name))

theorem refiled_alias {d : Draft} {nick : String} {known : List PartId} (name : String)
    (found : d.nicknames.lookup nick = some known) :
    Refiled d [name] nick known (d.declare ⟨[name], some nick⟩) := by
  cases instrument : Catalogue.find? name with
  | none =>
      simp only [declare, resolveAlias, instrument]
      exact .unknown List.mem_cons_self
  | some played =>
      simp only [declare, resolveAlias, instrument, found]
      rcases known with _ | ⟨id, _ | ⟨second, more⟩⟩
      · exact .inUse
      · by_cases same : d.parts[id.index]?.map (·.player.instrument) = some played.name
        · simp only [same, ↓reduceIte]
          exact .same rfl
        · simp only [same, ↓reduceIte]
          exact .inUse
      · exact .inUse

/-- Several names, or none, are given an alias together. -/
theorem declare_group (d : Draft) {names : List String} (nick : String)
    (several : names.length ≠ 1) :
    d.declare ⟨names, some nick⟩ =
      match d.resolveAll names with
      | .error e => .error e
      | .ok (ids, d) => (d.nickname nick ids).map (·.select ids) := by
  simp only [declare]
  split
  · exact absurd rfl several
  · rename_i given _ _ _
    rcases d.resolveAll given with e | ⟨ids, next⟩
    · rfl
    · simp only
      cases next.nickname nick ids <;> rfl

theorem refiled_group {d : Draft} {nick : String} {known : List PartId} {names : List String}
    (several : names.length ≠ 1) (found : d.nicknames.lookup nick = some known) :
    Refiled d names nick known (d.declare ⟨names, some nick⟩) := by
  rw [declare_group d nick several]
  cases resolved : d.resolveAll names with
  | error e =>
      obtain ⟨name, member, rfl⟩ := resolveAll_error names resolved
      exact .unknown member
  | ok result =>
      obtain ⟨ids, next⟩ := result
      have kept := keepsNames_filesAll (filesAll_resolveAll names resolved).1
      have still := kept.nicknames nick known found
      simp only [nickname, still]
      by_cases same : known = ids
      · simp only [same, ↓reduceIte]
        exact .same rfl
      · simp only [same, ↓reduceIte]
        exact .inUse

/-- A nickname is never filed again. -/
theorem refiled_of_known {d : Draft} {nick : String} {known : List PartId} (names : List String)
    (found : d.nicknames.lookup nick = some known) :
    Refiled d names nick known (d.declare ⟨names, some nick⟩) := by
  by_cases single : names.length = 1
  · obtain ⟨name, rfl⟩ := List.length_eq_one_iff.mp single
    exact refiled_alias name found
  · exact refiled_group single found

/-- A name that was declared can be declared after any further lines. It stands for the same parts
unless it has become a nickname of others, which no nickname ever does: what would give it to
others is refused. -/
theorem name_keeps_meaning_iff {d declared line d' : Draft} {name : String} {forms : List Form}
    (named : d.declare ⟨[name], none⟩ = .ok declared)
    (rest : applyAll forms declared = .ok line) (lines : Lines line d') :
    (∃ after, d'.declare ⟨[name], none⟩ = .ok after) ∧
      (d'.Means name declared.current ↔
        ∀ ids, d'.nicknames.lookup name = some ids → distinct ids = declared.current) ∧
      ∀ ids, declared.nicknames.lookup name = some ids →
        d'.Means name declared.current ∧
          ∀ names, Refiled d' names name ids (d'.declare ⟨names, some name⟩) := by
  rw [declare_single] at named
  cases resolved : d.resolve name with
  | error e =>
      rw [resolved] at named
      cases named
  | ok result =>
      obtain ⟨known, next⟩ := result
      rw [resolved] at named
      cases named
      have chosen : KeepsNames next (next.select known) := KeepsNames.of_eq rfl rfl
      have restKept : KeepsNames (next.select known) line := steps_keepsNames.applyAll forms rest
      have kept : KeepsNames next d' := (chosen.trans restKept).trans (keepsNames_lines lines)
      have selected : (next.select known).current = distinct known := rfl
      rw [selected]
      rcases (known_of_resolve resolved).later kept with still | ⟨free, others, taken⟩
      · refine ⟨⟨_, still.declare⟩, ?_, ?_⟩
        · refine ⟨fun _ ids found => ?_, fun _ => (still.means_iff _).mpr rfl⟩
          have here : Known d' name ids := .nickname found
          have same := here.resolve.symm.trans still.resolve
          cases same
          rfl
        · intro ids found
          exact ⟨(still.means_iff _).mpr rfl,
            fun names => refiled_of_known names (kept.nicknames name ids found)⟩
      · -- a stock name that was given away as a nickname in the meantime
        have now : Known d' name others := .nickname taken
        refine ⟨⟨_, now.declare⟩, ?_, ?_⟩
        · rw [now.means_iff]
          refine ⟨fun same ids found => ?_, fun same => same others taken⟩
          rw [taken] at found
          cases found
          exact same
        · intro ids found
          have impossible : next.nicknames.lookup name = some ids := found
          rw [free] at impossible
          cases impossible

def duo : Draft := ((empty.declare ⟨["violin", "viola"], some "strings"⟩).toOption).getD empty

theorem strings_keep_meaning :
    ∃ declared d', duo.declare ⟨["strings"], none⟩ = .ok declared ∧
      declared.current = [⟨0⟩, ⟨1⟩] ∧ Lines declared d' ∧ d'.current = [⟨2⟩] ∧
      d'.Means "strings" [⟨0⟩, ⟨1⟩] ∧
      Refiled d' ["cello"] "strings" [⟨0⟩, ⟨1⟩] (d'.declare ⟨["cello"], some "strings"⟩) := by
  let declared := ((duo.declare ⟨["strings"], none⟩).toOption).getD empty
  let cello : List Form := [.part ⟨["cello"], none⟩]
  let d' := ((declared.evaluate .part cello).toOption).getD empty
  have named : duo.declare ⟨["strings"], none⟩ = .ok declared := ok_getD (by decide +kernel) empty
  have evaluated : declared.evaluate .part cello = .ok d' := ok_getD (by decide +kernel) empty
  have lines : Lines declared d' := .single ⟨.part, cello, evaluated⟩
  have selected : declared.current = [⟨0⟩, ⟨1⟩] := by
    decide +kernel
  have other : d'.current = [⟨2⟩] := by
    decide +kernel
  have filed : declared.nicknames.lookup "strings" = some [⟨0⟩, ⟨1⟩] := by
    decide +kernel
  have nothing : applyAll [] declared = .ok declared := by
    rw [applyAll]
  obtain ⟨-, -, keeps⟩ := name_keeps_meaning_iff named nothing lines
  obtain ⟨means, refiled⟩ := keeps _ filed
  rw [selected] at means
  exact ⟨declared, d', named, selected, lines, other, means, refiled ["cello"]⟩

/-- A stock name that an alias is given away to: the third text plays the violin. -/
theorem piano_becomes_violin :
    let first : Passage := ⟨.part, "piano: c"⟩
    let given : Passage := ⟨.part, "violin \"piano\": d"⟩
    let again : Passage := ⟨.part, "piano: e"⟩
    (empty.written [first, given, again]).length = 3 ∧
      (empty.writeAll [first]).current = [⟨0⟩] ∧
      (empty.writeAll [first, given, again]).current = [⟨1⟩] ∧
      (empty.writeAll [first, given, again]).parts.map (·.player.instrument) =
        ["piano", "violin"] := by
  decide +kernel

end Songline.Draft
