import Songline.Proofs.DraftGrowth

set_option autoImplicit false

namespace Songline.Draft

/-- The part numbers of a draft are numbers of its parts, and none is selected twice. -/
structure Filed (d : Draft) : Prop where
  stock : ∀ entry ∈ d.stock, entry.2.index < d.parts.length
  nicknames : ∀ entry ∈ d.nicknames, ∀ id ∈ entry.2, id.index < d.parts.length
  current : ∀ id ∈ d.current, id.index < d.parts.length
  once : d.current.Nodup

theorem Grows.length_le {d d' : Draft} (grown : Grows d d') :
    d.parts.length ≤ d'.parts.length := by
  have longer := grown.roster.length_le
  rw [Draft.roster, Draft.roster, List.length_map, List.length_map] at longer
  exact longer

/-- A part goes on under its number, as the same player. -/
theorem Grows.part {d d' : Draft} (grown : Grows d d') {i : Nat} {p : Part}
    (here : d.parts[i]? = some p) : ∃ q, d'.parts[i]? = some q ∧ q.identity = p.identity := by
  obtain ⟨others, same⟩ := grown.roster
  obtain ⟨inside, -⟩ := List.getElem?_eq_some_iff.mp here
  have known : d.roster[i]? = some p.identity := by
    rw [Draft.roster, List.getElem?_map, here]
    rfl
  have kept : d'.roster[i]? = some p.identity := by
    rw [← same, List.getElem?_append_left, known]
    rw [Draft.roster, List.length_map]
    exact inside
  rw [Draft.roster, List.getElem?_map] at kept
  exact Option.map_eq_some_iff.mp kept

theorem filed_empty : Filed .empty where
  stock := fun _ member => absurd member List.not_mem_nil
  nicknames := fun _ member => absurd member List.not_mem_nil
  current := fun _ member => absurd member List.not_mem_nil
  once := List.nodup_nil

/-- Growth without a change of tables or selection. -/
theorem Filed.of_grows {d d' : Draft} (filed : Filed d) (grown : Grows d d')
    (stock : d'.stock = d.stock) (nicknames : d'.nicknames = d.nicknames)
    (current : d'.current = d.current) : Filed d' where
  stock := by
    rw [stock]
    exact fun entry member => Nat.lt_of_lt_of_le (filed.stock entry member) grown.length_le
  nicknames := by
    rw [nicknames]
    exact fun entry member id named =>
      Nat.lt_of_lt_of_le (filed.nicknames entry member id named) grown.length_le
  current := by
    rw [current]
    exact fun id member => Nat.lt_of_lt_of_le (filed.current id member) grown.length_le
  once := by
    rw [current]
    exact filed.once

/-- Picking what has not been seen keeps everything, and each number once. -/
theorem foldl_distinct (ids seen : List PartId) (once : seen.Nodup) :
    let kept := ids.foldl (fun seen id => if seen.contains id then seen else seen ++ [id]) seen
    kept.Nodup ∧ ∀ id, id ∈ kept ↔ id ∈ seen ∨ id ∈ ids := by
  induction ids generalizing seen with
  | nil => exact ⟨once, fun id => by simp⟩
  | cons first ids ih =>
      simp only [List.foldl_cons]
      by_cases known : seen.contains first
      · rw [if_pos known]
        rw [List.contains_iff_mem] at known
        refine ⟨(ih seen once).1, fun id => ?_⟩
        rw [(ih seen once).2, List.mem_cons]
        refine ⟨fun either => either.imp_right Or.inr, fun either => ?_⟩
        rcases either with here | rfl | later
        · exact Or.inl here
        · exact Or.inl known
        · exact Or.inr later
      · rw [if_neg known]
        rw [List.contains_iff_mem] at known
        have longer : (seen ++ [first]).Nodup := by
          rw [List.nodup_append]
          refine ⟨once, by simp, fun a here b there equal => known ?_⟩
          rw [← List.mem_singleton.mp there, ← equal]
          exact here
        refine ⟨(ih _ longer).1, fun id => ?_⟩
        rw [(ih _ longer).2, List.mem_append, List.mem_singleton, List.mem_cons, or_assoc]

theorem nodup_distinct (ids : List PartId) : (distinct ids).Nodup :=
  (foldl_distinct ids [] List.nodup_nil).1

theorem mem_distinct (ids : List PartId) (id : PartId) : id ∈ distinct ids ↔ id ∈ ids := by
  have member := (foldl_distinct ids [] List.nodup_nil).2 id
  simpa only [distinct, List.not_mem_nil, false_or] using member

theorem filed_select {d : Draft} {ids : List PartId} (filed : Filed d)
    (named : ∀ id ∈ ids, id.index < d.parts.length) : Filed (d.select ids) where
  stock := by
    simp only [select, List.length_map]
    exact filed.stock
  nicknames := by
    simp only [select, List.length_map]
    exact filed.nicknames
  current := by
    simp only [select, List.length_map]
    exact fun id member => named id ((mem_distinct ids id).mp member)
  once := nodup_distinct ids

theorem filed_create {d : Draft} (filed : Filed d) (instrument : Instrument) (name : String) :
    Filed (d.create instrument name).2 ∧
      (d.create instrument name).1.index < (d.create instrument name).2.parts.length := by
  refine ⟨filed.of_grows (grows_create d instrument name) rfl rfl rfl, ?_⟩
  simp only [create, List.length_append, List.length_singleton]
  omega

/-- A table may take in one more name for parts that exist. -/
theorem Filed.withStock {d : Draft} {name : String} {id : PartId} (filed : Filed d)
    (named : id.index < d.parts.length) : Filed { d with stock := (name, id) :: d.stock } where
  stock := by
    intro entry member
    rcases List.mem_cons.mp member with rfl | member
    · exact named
    · exact filed.stock entry member
  nicknames := filed.nicknames
  current := filed.current
  once := filed.once

theorem Filed.withNickname {d : Draft} {nick : String} {ids : List PartId} (filed : Filed d)
    (named : ∀ id ∈ ids, id.index < d.parts.length) :
    Filed { d with nicknames := (nick, ids) :: d.nicknames } where
  stock := filed.stock
  nicknames := by
    intro entry member
    rcases List.mem_cons.mp member with rfl | member
    · exact named
    · exact filed.nicknames entry member
  current := filed.current
  once := filed.once

/-- A part that has a name is there. -/
theorem Filed.listed {d : Draft} {id : PartId} (filed : Filed d) (listed : d.Listed id) :
    id.index < d.parts.length := by
  rcases listed with ⟨name, member⟩ | ⟨nick, ids, member, inside⟩
  · exact filed.stock _ member
  · exact filed.nicknames _ member id inside

theorem filed_files {d d' : Draft} (filed : Filed d) (filing : Files d d') : Filed d' := by
  cases filing with
  | @stock instrument known free =>
      obtain ⟨created, named⟩ := filed_create filed instrument instrument.name
      exact created.withStock named
  | @nick instrument nick known free =>
      obtain ⟨created, named⟩ := filed_create filed instrument nick
      refine created.withNickname fun id member => ?_
      rw [List.mem_singleton.mp member]
      exact named
  | group listed free => exact filed.withNickname fun id member => filed.listed (listed id member)

/-- What is done in parts leaves tables, selection and defaults alone. -/
structure SameTables (d d' : Draft) : Prop where
  stock : d'.stock = d.stock
  nicknames : d'.nicknames = d.nicknames
  current : d'.current = d.current
  defaults : d'.defaults = d.defaults

theorem SameTables.refl (d : Draft) : SameTables d d := ⟨rfl, rfl, rfl, rfl⟩

theorem SameTables.trans {a b c : Draft} (first : SameTables a b) (second : SameTables b c) :
    SameTables a c where
  stock := second.stock.trans first.stock
  nicknames := second.nicknames.trans first.nicknames
  current := second.current.trans first.current
  defaults := second.defaults.trans first.defaults

theorem sameTables_actIn {d d' : Draft} {a : Part.Action} {id : PartId}
    (done : d.actIn a id = .ok d') : SameTables d d' := by
  unfold actIn at done
  split at done
  · cases done
    exact SameTables.refl d
  · split at done
    · cases done
    · cases done
      exact ⟨rfl, rfl, rfl, rfl⟩

theorem sameTables_act {d d' : Draft} {a : Part.Action} (done : d.act a = .ok d') :
    SameTables d d' :=
  act_chain SameTables.refl SameTables.trans sameTables_actIn done

theorem filed_act {d d' : Draft} {a : Part.Action} (filed : Filed d) (done : d.act a = .ok d') :
    Filed d' :=
  have same := sameTables_act done
  filed.of_grows (grows_act done) same.stock same.nicknames same.current

theorem filed_setEverywhere {d d' : Draft} {s : Setting} (filed : Filed d)
    (done : d.setEverywhere s = .ok d') : Filed d' := by
  have grown := grows_setEverywhere done
  unfold setEverywhere at done
  split at done
  · cases done
  · cases done
    exact filed.of_grows grown rfl rfl rfl

theorem steps_filed : Steps fun d d' => Filed d → Filed d' :=
  Steps.of_files (fun _ filed => filed) (fun first second filed => second (first filed))
    (fun filing filed => filed_files filed filing)
    (fun listed filed => filed_select filed fun id member => filed.listed (listed id member))
    (fun done filed => filed_setEverywhere filed done) (fun done filed => filed_act filed done)

/-- Every draft that lines lead to is in order. -/
theorem Reachable.filed {d : Draft} (reached : Reachable d) : Filed d :=
  reached.induction steps_filed filed_empty

end Songline.Draft
