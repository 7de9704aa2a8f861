import Songline.Proofs.Filing

set_option autoImplicit false

namespace Songline

namespace Part

/-- What never changes in a part. -/
def identity (p : Part) : PartId × Player := (p.id, p.player)

@[simp] theorem closeVoices_identity (p : Part) : p.closeVoices.identity = p.identity := by
  unfold closeVoices
  split <;> rfl

@[simp] theorem voice_identity (p : Part) (n : UInt32) : (p.voice n).identity = p.identity := by
  unfold voice
  split
  · exact closeVoices_identity p
  · split
    · rfl
    · split <;> rfl

@[simp] theorem act_identity (p : Part) (a : Action) : (p.act a).2.identity = p.identity := by
  cases a with
  | move m => rfl
  | voice n => exact voice_identity p n
  | closeVoices => exact closeVoices_identity p

end Part

namespace Draft

/-- Who plays the parts, in the order of their numbers. -/
def roster (d : Draft) : List (PartId × Player) := d.parts.map Part.identity

/-- The later draft has the events of the earlier, and its parts before any others. -/
structure Grows (d d' : Draft) : Prop where
  events : ∀ e ∈ d.events, e ∈ d'.events
  roster : d.roster <+: d'.roster

namespace Grows

theorem refl (d : Draft) : Grows d d := ⟨fun _ member => member, List.prefix_refl _⟩

theorem trans {a b c : Draft} (first : Grows a b) (second : Grows b c) : Grows a c :=
  ⟨fun e member => second.events e (first.events e member), first.roster.trans second.roster⟩

/-- Tables and the selection say nothing about growth. -/
theorem of_eq {d d' : Draft} (events : d'.events = d.events) (parts : d'.parts = d.parts) :
    Grows d d' := by
  have same : d'.roster = d.roster := by rw [Draft.roster, Draft.roster, parts]
  exact ⟨fun e member => events ▸ member, same ▸ List.prefix_refl _⟩

/-- Parts may change in every way but their identity. -/
theorem of_map {d d' : Draft} (f : Part → Part) (kept : ∀ p, (f p).identity = p.identity)
    (events : d'.events = d.events) (parts : d'.parts = d.parts.map f) : Grows d d' := by
  have identities : Part.identity ∘ f = Part.identity := funext kept
  have same : d'.roster = d.roster := by
    rw [Draft.roster, Draft.roster, parts, List.map_map, identities]
  exact ⟨fun e member => events ▸ member, same ▸ List.prefix_refl _⟩

end Grows

theorem grows_actIn {d d' : Draft} {a : Part.Action} {id : PartId}
    (done : d.actIn a id = .ok d') : Grows d d' := by
  unfold actIn at done
  split at done
  · cases done
    exact Grows.refl d
  · rename_i p found
    split at done
    · cases done
    · rename_i events after acted
      cases done
      have kept : after.identity = p.identity := by
        rw [← Part.act_identity p a, acted]
      refine ⟨?_, ?_⟩
      · intro e member
        exact Std.ExtTreeSet.mem_insertMany_list.mpr (Or.inl member)
      · obtain ⟨inside, here⟩ := List.getElem?_eq_some_iff.mp found
        have same : (d.parts.set id.index after).map Part.identity = d.parts.map Part.identity := by
          apply List.ext_getElem?
          intro i
          by_cases changed : id.index = i
          · subst changed
            simp [kept, inside, here]
          · simp [changed]
        simp only [roster, same]
        exact List.prefix_refl _

theorem grows_act {d d' : Draft} {a : Part.Action} (done : d.act a = .ok d') : Grows d d' :=
  act_chain Grows.refl Grows.trans grows_actIn done

theorem grows_setEverywhere {d d' : Draft} {s : Setting} (done : d.setEverywhere s = .ok d') :
    Grows d d' := by
  unfold setEverywhere at done
  split at done
  · cases done
  · rename_i change _
    cases done
    exact Grows.of_map (·.restyle change) (fun _ => rfl) rfl rfl

theorem grows_create (d : Draft) (instrument : Instrument) (name : String) :
    Grows d (d.create instrument name).2 := by
  refine ⟨fun _ member => member, ?_⟩
  rw [roster, roster, create, List.map_append]
  exact List.prefix_append _ _

theorem grows_files {d d' : Draft} (filing : Files d d') : Grows d d' := by
  cases filing with
  | @stock instrument known free =>
      exact (grows_create d instrument instrument.name).trans (Grows.of_eq rfl rfl)
  | @nick instrument nick known free =>
      exact (grows_create d instrument nick).trans (Grows.of_eq rfl rfl)
  | group listed free => exact Grows.of_eq rfl rfl

theorem grows_select (d : Draft) (ids : List PartId) : Grows d (d.select ids) := by
  have kept : ∀ p : Part,
      (if d.current.contains p.id then p.closeVoices else p).identity = p.identity := by
    intro p
    split
    · exact Part.closeVoices_identity p
    · rfl
  exact Grows.of_map _ kept rfl rfl

theorem steps_grows : Steps Grows :=
  Steps.of_files Grows.refl Grows.trans grows_files (fun _ => grows_select _ _)
    grows_setEverywhere grows_act

/-- A line adds to the score. -/
theorem grows_evaluate {d d' : Draft} {entry : Entry} {forms : List Form}
    (done : d.evaluate entry forms = .ok d') : Grows d d' := steps_grows.evaluate done

end Draft

end Songline
