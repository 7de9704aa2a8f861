import Songline.Proofs.PartActions
import Songline.Proofs.PartOrder

set_option autoImplicit false

namespace Songline.Draft

/-- The parts of a draft are what its tables, its selection and its events take them for. -/
structure Ordered (d : Draft) : Prop where
  /-- A part is found by its number. -/
  numbered : ∀ (i : Nat) (p : Part), d.parts[i]? = some p → p.id = ⟨i⟩
  /-- A stock name stands for a part that has it and its instrument. -/
  players : ∀ entry ∈ d.stock, ∃ instrument ∈ Catalogue.all, entry.1 = instrument.name ∧
    ∃ p, d.parts[entry.2.index]? = some p ∧
      p.player = ⟨instrument.name, instrument.name, instrument.patch⟩
  voices : ∀ p ∈ d.parts, p.InOrder
  /-- Only selected parts have open voices. -/
  opened : ∀ p ∈ d.parts, p.voices ≠ none → p.id ∈ d.current
  events : ∀ e ∈ d.events, e.part.index < d.parts.length ∧ e.pitch ≤ 127 ∧ e.volume ≤ 100

/-- The parts of a draft are told apart by numbers of 32 bits, unless it has more than there are. -/
theorem Ordered.number_inj {d : Draft} (ordered : Ordered d) (few : d.parts.length ≤ UInt32.size)
    {p q : Part} (left : p ∈ d.parts) (right : q ∈ d.parts)
    (same : UInt32.ofNat p.id.index = UInt32.ofNat q.id.index) : p = q := by
  obtain ⟨i, inside, here⟩ := List.getElem_of_mem left
  obtain ⟨j, inside', here'⟩ := List.getElem_of_mem right
  have first := ordered.numbered i p (List.getElem?_eq_some_iff.mpr ⟨inside, here⟩)
  have second := ordered.numbered j q (List.getElem?_eq_some_iff.mpr ⟨inside', here'⟩)
  have numbers := congrArg UInt32.toNat same
  rw [first, second, UInt32.toNat_ofNat', UInt32.toNat_ofNat'] at numbers
  change i % UInt32.size = j % UInt32.size at numbers
  rw [Nat.mod_eq_of_lt (by omega), Nat.mod_eq_of_lt (by omega)] at numbers
  subst numbers
  exact here.symm.trans here'

theorem ordered_empty : Ordered .empty where
  numbered := fun i p here => by
    rw [empty, List.getElem?_nil] at here
    cases here
  players := fun _ member => absurd member List.not_mem_nil
  voices := fun _ member => absurd member List.not_mem_nil
  opened := fun _ member => absurd member List.not_mem_nil
  events := fun _ member => absurd member Std.ExtTreeSet.not_mem_empty

/-- A stock name goes on standing for its part as the draft grows. -/
theorem Ordered.players_of_grows {d d' : Draft} (ordered : Ordered d) (grown : Grows d d') :
    ∀ entry ∈ d.stock, ∃ instrument ∈ Catalogue.all, entry.1 = instrument.name ∧
      ∃ p, d'.parts[entry.2.index]? = some p ∧
        p.player = ⟨instrument.name, instrument.name, instrument.patch⟩ := by
  intro entry member
  obtain ⟨instrument, known, named, p, here, player⟩ := ordered.players entry member
  obtain ⟨q, there, same⟩ := grown.part here
  exact ⟨instrument, known, named, q, there, (congrArg Prod.snd same).trans player⟩

/-- Parts may change as long as they remain who they are, with their voices in order. -/
theorem Ordered.of_map {d d' : Draft} (ordered : Ordered d) (f : Part → Part)
    (identity : ∀ p, (f p).identity = p.identity) (parts : d'.parts = d.parts.map f)
    (stock : d'.stock = d.stock) (events : d'.events = d.events)
    (voices : ∀ p ∈ d.parts, (f p).InOrder)
    (opened : ∀ p ∈ d.parts, (f p).voices ≠ none → p.id ∈ d'.current) : Ordered d' where
  numbered := by
    intro i q here
    rw [parts, List.getElem?_map] at here
    obtain ⟨p, there, rfl⟩ := Option.map_eq_some_iff.mp here
    exact (congrArg Prod.fst (identity p)).trans (ordered.numbered i p there)
  players := by
    rw [stock]
    exact ordered.players_of_grows (Grows.of_map f identity events parts)
  voices := by
    rw [parts]
    intro q member
    obtain ⟨p, there, rfl⟩ := List.mem_map.mp member
    exact voices p there
  opened := by
    rw [parts]
    intro q member isOpen
    obtain ⟨p, there, rfl⟩ := List.mem_map.mp member
    have same : (f p).id = p.id := congrArg Prod.fst (identity p)
    rw [same]
    exact opened p there isOpen
  events := by
    rw [parts, events, List.length_map]
    exact ordered.events

theorem Ordered.create {d : Draft} (ordered : Ordered d) (instrument : Instrument)
    (name : String) : Ordered (d.create instrument name).2 := by
  have grown := grows_create d instrument name
  have fresh : ∀ p ∈ (d.create instrument name).2.parts, p ∈ d.parts ∨
      p = Part.new ⟨d.parts.length⟩ ⟨name, instrument.name, instrument.patch⟩ d.defaults := by
    intro p member
    rcases List.mem_append.mp member with old | new
    · exact Or.inl old
    · exact Or.inr (List.mem_singleton.mp new)
  refine ⟨?_, ordered.players_of_grows grown, ?_, ?_, ?_⟩
  · intro i p here
    simp only [Draft.create, List.getElem?_append, List.getElem?_singleton] at here
    split at here
    · exact ordered.numbered i p here
    · split at here
      · rename_i outside last
        cases here
        have place : i = d.parts.length := by omega
        rw [place]
        rfl
      · cases here
  · intro p member
    rcases fresh p member with old | rfl
    · exact ordered.voices p old
    · exact Part.inOrder_of_closed rfl
  · intro p member isOpen
    rcases fresh p member with old | rfl
    · exact ordered.opened p old isOpen
    · exact absurd rfl isOpen
  · intro e member
    obtain ⟨inside, playable⟩ := ordered.events e member
    exact ⟨Nat.lt_of_lt_of_le inside grown.length_le, playable⟩

/-- A name may be filed for the part that was created last. -/
theorem Ordered.withStock {d : Draft} (ordered : Ordered d) {instrument : Instrument}
    (known : instrument ∈ Catalogue.all) : Ordered (d.withStock instrument) := by
  have created := ordered.create instrument instrument.name
  refine ⟨created.numbered, ?_, created.voices, created.opened, created.events⟩
  intro entry member
  rcases List.mem_cons.mp member with rfl | old
  · let created := Part.new ⟨d.parts.length⟩
      ⟨instrument.name, instrument.name, instrument.patch⟩ d.defaults
    exact ⟨instrument, known, rfl, created, List.getElem?_concat_length, rfl⟩
  · exact created.players entry old

theorem Ordered.files {d d' : Draft} (ordered : Ordered d) (filing : Files d d') :
    Ordered d' := by
  cases filing with
  | stock known free => exact ordered.withStock known
  | @nick instrument nick known free =>
      have created := ordered.create instrument nick
      exact ⟨created.numbered, created.players, created.voices, created.opened, created.events⟩
  | group listed free =>
      exact ⟨ordered.numbered, ordered.players, ordered.voices, ordered.opened, ordered.events⟩

/-- Selecting closes all voices that are open. -/
theorem Ordered.closed_select {d : Draft} (ordered : Ordered d) {p : Part} (member : p ∈ d.parts) :
    (if d.current.contains p.id then p.closeVoices else p).voices = none := by
  split
  · exact p.voices_closeVoices
  · rename_i unselected
    cases voices : p.voices with
    | none => rfl
    | some g =>
        have isOpen : p.voices ≠ none := by
          rw [voices]
          exact Option.some_ne_none g
        exact absurd (List.contains_iff_mem.mpr (ordered.opened p member isOpen)) unselected

theorem Ordered.select {d : Draft} (ordered : Ordered d) (ids : List PartId) :
    Ordered (d.select ids) := by
  have closed : ∀ p ∈ d.parts,
      (if d.current.contains p.id then p.closeVoices else p).voices = none :=
    fun p member => ordered.closed_select member
  refine ordered.of_map (fun p => if d.current.contains p.id then p.closeVoices else p) ?_ rfl rfl
    rfl ?_ ?_
  · intro p
    split
    · exact p.closeVoices_identity
    · rfl
  · exact fun p member => Part.inOrder_of_closed (closed p member)
  · exact fun p member isOpen => absurd (closed p member) isOpen

theorem Ordered.setEverywhere {d d' : Draft} {s : Setting} (ordered : Ordered d)
    (done : d.setEverywhere s = .ok d') : Ordered d' := by
  unfold Draft.setEverywhere at done
  split at done
  · cases done
  · rename_i change _
    cases done
    exact ordered.of_map (·.restyle change) (fun _ => rfl) rfl rfl rfl
      (fun p member => (ordered.voices p member).restyle change) ordered.opened

theorem Ordered.act {d d' : Draft} {a : Part.Action} (filed : Filed d) (ordered : Ordered d)
    (done : d.act a = .ok d') : Ordered d' := by
  have grown := grows_act done
  have same := sameTables_act done
  have played := played_of_act filed done
  refine ⟨?_, ?_, ?_, ?_, ?_⟩
  · intro i q here
    rcases played.part here with untouched | ⟨-, p, events, there, acted⟩
    · exact ordered.numbered i q untouched
    · have kept : q.id = p.id := by
        have identity := p.act_identity a
        rw [acted] at identity
        exact congrArg Prod.fst identity
      rw [kept]
      exact ordered.numbered i p there
  · rw [same.stock]
    exact ordered.players_of_grows grown
  · intro q member
    obtain ⟨i, here⟩ := List.mem_iff_getElem?.mp member
    rcases played.part here with untouched | ⟨-, p, events, there, acted⟩
    · exact ordered.voices q (List.mem_of_getElem? untouched)
    · have kept := (ordered.voices p (List.mem_of_getElem? there)).act a
      rw [acted] at kept
      exact kept
  · -- only a selected part can have opened a voice, since no other has acted
    intro q member isOpen
    rw [same.current]
    obtain ⟨i, here⟩ := List.mem_iff_getElem?.mp member
    rcases played.part here with untouched | ⟨chosen, p, events, there, acted⟩
    · exact ordered.opened q (List.mem_of_getElem? untouched) isOpen
    · have identity := p.act_identity a
      rw [acted] at identity
      have kept : q.id = p.id := congrArg Prod.fst identity
      rw [kept, ordered.numbered i p there]
      exact chosen
  · intro e member
    rcases (played.events e).mp member with old | ⟨id, chosen, events, q, ⟨p, there, ran⟩, laid⟩
    · obtain ⟨inside, playable⟩ := ordered.events e old
      exact ⟨Nat.lt_of_lt_of_le inside grown.length_le, playable⟩
    · rw [Part.run_singleton] at ran
      have playable := Part.playable_act ran e laid
      have own : e.part = id := playable.part.trans (ordered.numbered id.index p there)
      rw [own]
      have inside := Nat.lt_of_lt_of_le (filed.current id chosen) grown.length_le
      exact ⟨inside, playable.pitch, playable.volume⟩

/-- A draft stays in order whatever lines do to it. -/
theorem steps_ordered : Steps fun d d' => Filed d ∧ Ordered d → Filed d' ∧ Ordered d' := by
  refine Steps.of_files (fun _ both => both) (fun first second both => second (first both))
    ?_ ?_ ?_ ?_
  · exact fun filing both => ⟨filed_files both.1 filing, both.2.files filing⟩
  · intro d ids listed both
    have named : ∀ id ∈ ids, id.index < d.parts.length :=
      fun id member => both.1.listed (listed id member)
    exact ⟨filed_select both.1 named, both.2.select ids⟩
  · exact fun done both => ⟨filed_setEverywhere both.1 done, both.2.setEverywhere done⟩
  · exact fun done both => ⟨filed_act both.1 done, both.2.act both.1 done⟩

theorem Reachable.ordered {d : Draft} (reached : Reachable d) : Ordered d :=
  (reached.induction steps_ordered ⟨filed_empty, ordered_empty⟩).2

end Songline.Draft
