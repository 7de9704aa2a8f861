import Mathlib.Data.List.Basic
import Songline.Sound.Rack

set_option autoImplicit false

namespace Songline

namespace Rack

/-- What is done to a rack from one playback to the next. -/
inductive Change
  | load (p : Playback)
  | clear

def change (r : Rack) : Change → Rack
  | .load p => (r.load p).1
  | .clear => r.clear

def after (seed : UInt64) (changes : List Change) : Rack := changes.foldl change (.empty seed)

def has (r : Rack) (id : PartId) (patch : Patch) : Bool := (r.slots[id]?.map (·.patch)) = some patch

/-- Every loaded part has the synthesizer of its patch, made with its own seed. -/
structure Made (seed : UInt64) (r : Rack) : Prop where
  seeded : r.seed = seed
  made : ∀ id slot, r.slots[id]? = some slot → slot = r.slotFor id slot.patch

theorem made_empty (seed : UInt64) : Made seed (.empty seed) where
  seeded := rfl
  made id slot found := by
    rw [empty, Std.ExtTreeMap.getElem?_empty] at found
    cases found

section Part

variable {r : Rack} {seed : UInt64} {id : PartId} {patch : Patch}

theorem loadPart_of_has (loaded : r.has id patch = true) : r.loadPart id patch = (r, false) :=
  if_pos (of_decide_eq_true loaded)

theorem loadPart_of_not_has (missing : r.has id patch = false) :
    r.loadPart id patch = ({ r with slots := r.slots.insert id (r.slotFor id patch) }, true) :=
  if_neg (of_decide_eq_false missing)

theorem loadPart_snd (r : Rack) (id : PartId) (patch : Patch) :
    (r.loadPart id patch).2 = !r.has id patch := by
  cases loaded : r.has id patch with
  | true => rw [loadPart_of_has loaded, Bool.not_true]
  | false => rw [loadPart_of_not_has loaded, Bool.not_false]

theorem seed_loadPart (r : Rack) (id : PartId) (patch : Patch) :
    (r.loadPart id patch).1.seed = r.seed := by
  cases loaded : r.has id patch with
  | true => rw [loadPart_of_has loaded]
  | false => rw [loadPart_of_not_has loaded]

theorem slots_loadPart_other {other : PartId} (r : Rack) (patch : Patch) (apart : id ≠ other) :
    (r.loadPart id patch).1.slots[other]? = r.slots[other]? := by
  cases loaded : r.has id patch with
  | true => rw [loadPart_of_has loaded]
  | false =>
      rw [loadPart_of_not_has loaded, Std.ExtTreeMap.getElem?_insert,
        if_neg fun same => apart (Std.LawfulEqOrd.eq_of_compare same)]

theorem has_loadPart_other {other : PartId} (r : Rack) (patch wanted : Patch) (apart : id ≠ other) :
    (r.loadPart id patch).1.has other wanted = r.has other wanted := by
  rw [has, slots_loadPart_other r patch apart, has]

/-- A part that is there already with its patch has what it would be given. -/
theorem Made.slots_loadPart (made : Made seed r) :
    (r.loadPart id patch).1.slots[id]? = some (r.slotFor id patch) := by
  cases loaded : r.has id patch with
  | true =>
      obtain ⟨slot, found, same⟩ := Option.map_eq_some_iff.mp (of_decide_eq_true loaded)
      rw [loadPart_of_has loaded, found, ← same]
      exact congrArg some (made.made id slot found)
  | false => rw [loadPart_of_not_has loaded, Std.ExtTreeMap.getElem?_insert_self]

theorem slotFor_of_seed {s : Rack} (same : s.seed = r.seed) (id : PartId) (patch : Patch) :
    s.slotFor id patch = r.slotFor id patch := by
  rw [slotFor, slotFor, seedOf, seedOf, same]

theorem Made.loadPart (made : Made seed r) (id : PartId) (patch : Patch) :
    Made seed (r.loadPart id patch).1 where
  seeded := (seed_loadPart r id patch).trans made.seeded
  made other slot found := by
    rw [slotFor_of_seed (seed_loadPart r id patch)]
    by_cases same : id = other
    · rw [← same, made.slots_loadPart] at found
      cases found
      rw [← same]
      rfl
    · rw [slots_loadPart_other r patch same] at found
      exact made.made other slot found

end Part

section Parts

variable {r : Rack} {seed : UInt64}

theorem Made.loadParts (made : Made seed r) (parts : List (PartId × Player)) :
    Made seed (r.loadParts parts).1 := by
  induction parts generalizing r with
  | nil => exact made
  | cons entry parts ih => exact ih (made.loadPart entry.1 entry.2.patch)

theorem slots_loadParts_other (r : Rack) {parts : List (PartId × Player)} {id : PartId}
    (apart : ∀ entry ∈ parts, entry.1 ≠ id) :
    (r.loadParts parts).1.slots[id]? = r.slots[id]? := by
  induction parts generalizing r with
  | nil => rfl
  | cons entry parts ih =>
      have later := ih (r.loadPart entry.1 entry.2.patch).1 fun other listed =>
        apart other (List.mem_cons_of_mem entry listed)
      exact later.trans (slots_loadPart_other r _ (apart entry List.mem_cons_self))

/-- Each part is loaded with its patch, as no other part takes its place. -/
theorem Made.slots_loadParts (made : Made seed r) {parts : List (PartId × Player)}
    (distinct : parts.Pairwise fun a b => a.1 ≠ b.1) {entry : PartId × Player}
    (listed : entry ∈ parts) :
    (r.loadParts parts).1.slots[entry.1]? = some (r.slotFor entry.1 entry.2.patch) := by
  induction parts generalizing r with
  | nil => cases listed
  | cons first parts ih =>
      obtain ⟨apart, distinct⟩ := List.pairwise_cons.mp distinct
      have seeds := seed_loadPart r first.1 first.2.patch
      rcases List.mem_cons.mp listed with rfl | later
      · have kept := slots_loadParts_other (r.loadPart entry.1 entry.2.patch).1
          fun other among => (apart other among).symm
        exact kept.trans made.slots_loadPart
      · rw [← slotFor_of_seed seeds]
        exact ih (made.loadPart first.1 first.2.patch) distinct later

/-- Those are counted that were not loaded with their patch before. -/
theorem count_loadParts (r : Rack) {parts : List (PartId × Player)}
    (distinct : parts.Pairwise fun a b => a.1 ≠ b.1) :
    (r.loadParts parts).2 = parts.countP fun entry => !r.has entry.1 entry.2.patch := by
  induction parts generalizing r with
  | nil => rfl
  | cons first parts ih =>
      obtain ⟨apart, distinct⟩ := List.pairwise_cons.mp distinct
      have before : (parts.countP fun entry =>
          !(r.loadPart first.1 first.2.patch).1.has entry.1 entry.2.patch) =
            parts.countP fun entry => !r.has entry.1 entry.2.patch := by
        apply List.countP_congr
        intro entry listed
        rw [has_loadPart_other r _ _ (apart entry listed)]
      have counted : (r.loadParts (first :: parts)).2 =
          ((r.loadPart first.1 first.2.patch).1.loadParts parts).2 +
            (r.loadPart first.1 first.2.patch).2.toNat := rfl
      rw [counted, ih _ distinct, before, loadPart_snd, List.countP_cons]
      cases r.has first.1 first.2.patch <;> rfl

theorem loadParts_of_has {parts : List (PartId × Player)}
    (loaded : ∀ entry ∈ parts, r.has entry.1 entry.2.patch = true) :
    r.loadParts parts = (r, 0) := by
  induction parts with
  | nil => rfl
  | cons first parts ih =>
      have rest := ih fun entry listed => loaded entry (List.mem_cons_of_mem first listed)
      have here := loadPart_of_has (loaded first List.mem_cons_self)
      simp only [loadParts, here, rest, Bool.toNat_false, Nat.add_zero]

end Parts

section Playbacks

variable {r : Rack} {seed : UInt64}

theorem distinct_parts (p : Playback) : p.parts.toList.Pairwise fun a b => a.1 ≠ b.1 := by
  apply List.Pairwise.imp _ Std.ExtTreeMap.distinct_keys_toList
  intro a b apart same
  exact apart (Std.LawfulEqOrd.compare_eq_iff_eq.mpr same)

/-- A part of the playback is loaded with its patch. -/
theorem Made.slots_load (made : Made seed r) {p : Playback} {id : PartId} {player : Player}
    (belongs : p.parts[id]? = some player) :
    (r.load p).1.slots[id]? = some (r.slotFor id player.patch) :=
  made.slots_loadParts (distinct_parts p)
    (Std.ExtTreeMap.mem_toList_iff_getElem?_eq_some.mpr belongs)

theorem slots_load_other (r : Rack) {p : Playback} {id : PartId} (foreign : p.parts[id]? = none) :
    (r.load p).1.slots[id]? = r.slots[id]? := by
  apply slots_loadParts_other
  intro entry listed same
  have found := Std.ExtTreeMap.mem_toList_iff_getElem?_eq_some.mp listed
  rw [same, foreign] at found
  cases found

theorem count_load (r : Rack) (p : Playback) :
    (r.load p).2 = (p.parts.filter fun id player => !r.has id player.patch).size := by
  rw [← Std.ExtTreeMap.length_toList, Std.ExtTreeMap.toList_filter, ← List.countP_eq_length_filter]
  exact count_loadParts r (distinct_parts p)

/-- A second load finds all parts loaded. -/
theorem Made.load_again (made : Made seed r) (p : Playback) :
    (r.load p).1.load p = ((r.load p).1, 0) := by
  apply loadParts_of_has
  intro entry listed
  have found := made.slots_load (Std.ExtTreeMap.mem_toList_iff_getElem?_eq_some.mp listed)
  rw [has, found]
  exact decide_eq_true rfl

theorem Made.change (made : Made seed r) (c : Change) : Made seed (r.change c) := by
  cases c with
  | load p => exact made.loadParts p.parts.toList
  | clear => exact ⟨made.seeded, (made_empty r.seed).made⟩

theorem made_after (seed : UInt64) (changes : List Change) : Made seed (after seed changes) := by
  have kept : ∀ r, Made seed r → Made seed (changes.foldl Rack.change r) := by
    induction changes with
    | nil => exact fun _ made => made
    | cons c changes ih => exact fun r made => ih (r.change c) (made.change c)
  exact kept (.empty seed) (made_empty seed)

end Playbacks

end Rack

/-- A mixdown hangs on what the rack has for the parts of its events. -/
theorem Playback.mixdown_congr (p : Playback) {r s : Rack} (format : SoundFormat)
    (same : ∀ e ∈ p.events, r.slots[e.part]? = s.slots[e.part]?) :
    p.mixdown r format = p.mixdown s format := by
  apply List.foldl_ext
  intro out e listed
  rw [Mixdown.addEvent, Mixdown.addEvent, Rack.render, Rack.render, same e listed]

namespace Rack

/-- After any loads and clearings, every slot has the synthesizer of its patch, made with the seed
and the number of its part. Loading a playback gives each of its parts its patch, counts the parts
that did not have theirs, and leaves the other parts alone; loading it once more does nothing. So
what it sounds like, if its events are all of its parts, is what it sounds like in a new rack with
the same seed. -/
theorem loads_forget (seed : UInt64) (changes : List Change) (p : Playback) (format : SoundFormat) :
    let r := after seed changes
    let loaded := (r.load p).1
    (∀ (id : PartId) (slot : Slot), r.slots[id]? = some slot →
      slot.synth = Synth.ofPatch (seed + UInt64.ofNat id.index) slot.patch) ∧
    (∀ (id : PartId) (player : Player), p.parts[id]? = some player →
      loaded.slots[id]? =
        some ⟨player.patch, Synth.ofPatch (seed + UInt64.ofNat id.index) player.patch⟩) ∧
    (r.load p).2 =
      (p.parts.filter fun id player => (r.slots[id]?.map (·.patch)) ≠ some player.patch).size ∧
    (∀ id : PartId, p.parts[id]? = none → loaded.slots[id]? = r.slots[id]?) ∧
    loaded.load p = (loaded, 0) ∧
    ((∀ e ∈ p.events, e.part ∈ p.parts) →
      p.mixdown loaded format = p.mixdown ((Rack.empty seed).load p).1 format) := by
  intro r loaded
  have made : Made seed r := made_after seed changes
  refine ⟨?_, ?_, ?_, ?_, made.load_again p, ?_⟩
  · intro id slot found
    rw [← made.seeded]
    exact congrArg Slot.synth (made.made id slot found)
  · intro id player belongs
    rw [← made.seeded]
    exact made.slots_load belongs
  · rw [count_load]
    simp only [has, ne_eq, decide_not]
  · intro id foreign
    exact slots_load_other r foreign
  · intro belong
    apply p.mixdown_congr format
    intro e listed
    have here := belong e listed
    have belongs : p.parts[e.part]? = some p.parts[e.part] :=
      Std.ExtTreeMap.getElem?_eq_some_getElem here
    rw [made.slots_load belongs, (made_empty seed).slots_load belongs]
    exact congrArg some (slotFor_of_seed made.seeded e.part _)

def solo (player : Player) : Playback :=
  ⟨[⟨.zero, ⟨0⟩, 36, .ofMillis 450, 100⟩], (∅ : PartTable).insert ⟨0⟩ player⟩

/-- The first part was a piano, and in a new score it is drums. -/
theorem drums_forget_piano :
    let piano := solo ⟨"piano", "piano", .keys⟩
    let drums := solo ⟨"drums", "drums", .percussion⟩
    (∀ e ∈ drums.events, e.part ∈ drums.parts) ∧
      drums.mixdown ((after 7 [.load piano]).load drums).1 ⟨44100, 2⟩ =
        drums.mixdown ((Rack.empty 7).load drums).1 ⟨44100, 2⟩ := by
  intro piano drums
  obtain ⟨-, -, -, -, -, forget⟩ := loads_forget 7 [.load piano] drums ⟨44100, 2⟩
  have belong : ∀ e ∈ drums.events, e.part ∈ drums.parts := by
    intro e listed
    rw [List.mem_singleton.mp listed]
    exact Std.ExtTreeMap.mem_insert_self
  exact ⟨belong, forget belong⟩

end Rack

end Songline
