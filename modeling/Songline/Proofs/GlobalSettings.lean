import Songline.Proofs.Attributes
import Songline.Proofs.DraftOrder
import Songline.Proofs.Passages
import Songline.Proofs.UnrolledLines

set_option autoImplicit false

namespace Songline

/-- A leaf that sets an attribute, of some parts or of all. -/
def Form.LeafSets (a : Attribute) : Form → Prop
  | .setting s => Attribute.ofName? s.name = some a
  | .octave _ => a = .octave
  | _ => False

def Form.Sets (a : Attribute) (form : Form) : Prop := ∃ leaf ∈ form.unroll, leaf.LeafSets a

/-- A part has a value where it is, and the notes of its next move are laid out with it. -/
structure Part.PlaysWith (p : Part) (a : Attribute) (value : Float) : Prop where
  has : p.cursor.style.Has a value
  notes : ∀ m events, (p.act (.move m)).1 = .ok events →
    p.cursor.style.LaysOut m.notes events

theorem Part.playsWith_of_has {p : Part} {a : Attribute} {value : Float}
    (has : p.cursor.style.Has a value) : p.PlaysWith a value where
  has := has
  notes m := (Cursor.keeps_move p.id p.cursor m).result

namespace Draft

/-- What forms that do not set an attribute make of a draft, in one line or in several. -/
inductive GoesOn (a : Attribute) (d : Draft) : Draft → Prop
  | start : GoesOn a d d
  | form {between after : Draft} {form : Form} (before : GoesOn a d between)
      (keeps : ¬ form.Sets a) (done : apply form between = .ok after) : GoesOn a d after
  | score {between : Draft} (before : GoesOn a d between) : GoesOn a d (between.select [])

/-- The part of a number plays with a value. -/
def PlaysWith (d : Draft) (i : Nat) (a : Attribute) (value : Float) : Prop :=
  ∃ p, d.parts[i]? = some p ∧ p.PlaysWith a value

/-- The part of a number has styles of a kind only. -/
def Throughout (d : Draft) (i : Nat) (kind : Style → Prop) : Prop :=
  ∃ p, d.parts[i]? = some p ∧ p.Throughout kind

/-- What a setting does to the parts and to those still to come. -/
theorem setEverywhere_gives {d d' : Draft} {s : Setting} (done : d.setEverywhere s = .ok d') :
    ∃ a set, Attribute.ofName? s.name = some a ∧ Style.Gives set a s.value ∧
      d'.defaults = set d.defaults ∧ d'.parts = d.parts.map (·.restyle set) := by
  unfold setEverywhere at done
  split at done
  · cases done
  · rename_i set changed
    obtain ⟨a, named, gives⟩ := Style.gives_of_change changed
    cases done
    exact ⟨a, set, named, gives, rfl, rfl⟩

section

variable {d d' : Draft} {i : Nat} {a : Attribute} {value : Float} {kind : Style → Prop}

theorem Throughout.files (all : d.Throughout i kind) (filing : Files d d') :
    d'.Throughout i kind := by
  obtain ⟨p, here, throughout⟩ := all
  have inside := (List.getElem?_eq_some_iff.mp here).1
  refine ⟨p, ?_, throughout⟩
  cases filing with
  | stock | nick => exact (List.getElem?_append_left inside).trans here
  | group => exact here

theorem Throughout.select (all : d.Throughout i kind) (ids : List PartId) :
    (d.select ids).Throughout i kind := by
  obtain ⟨p, here, throughout⟩ := all
  refine ⟨if d.current.contains p.id then p.closeVoices else p, ?_, ?_⟩
  · simp only [Draft.select, List.getElem?_map, here, Option.map_some]
  · split
    · exact throughout.closeVoices
    · exact throughout

theorem Throughout.declare (all : d.Throughout i kind) {decl : PartDecl}
    (done : d.declare decl = .ok d') : d'.Throughout i kind := by
  obtain ⟨filed, ids, filings, -, rfl⟩ := filesAll_declare done
  have kept := filings.chain (R := fun d d' => d.Throughout i kind → d'.Throughout i kind)
    (fun _ all => all) (fun first second all => second (first all))
    fun filing all => all.files filing
  exact (kept all).select ids

theorem Throughout.actIn (all : d.Throughout i (·.Has a value)) {action : Part.Action}
    (kept : ¬ action.Sets a) {id : PartId} (done : d.actIn action id = .ok d') :
    d'.Throughout i (·.Has a value) := by
  obtain ⟨p, here, throughout⟩ := all
  unfold Draft.actIn at done
  split at done
  · cases done
    exact ⟨p, here, throughout⟩
  · rename_i own found
    split at done
    · cases done
    · rename_i events next acted
      cases done
      by_cases same : id.index = i
      · subst same
        rw [found] at here
        cases here
        have after := throughout.act kept
        rw [acted] at after
        exact ⟨next, List.getElem?_set_self (List.getElem?_eq_some_iff.mp found).1, after⟩
      · exact ⟨p, (List.getElem?_set_ne same).trans here, throughout⟩

theorem Throughout.act (all : d.Throughout i (·.Has a value)) {action : Part.Action}
    (kept : ¬ action.Sets a) (done : d.act action = .ok d') : d'.Throughout i (·.Has a value) :=
  act_chain (R := fun d d' => d.Throughout i (·.Has a value) → d'.Throughout i (·.Has a value))
    (fun _ all => all) (fun first second all => second (first all))
    (fun done all => all.actIn kept done) done all

theorem Throughout.setEverywhere (all : d.Throughout i (·.Has a value)) {s : Setting}
    (kept : Attribute.ofName? s.name ≠ some a) (done : d.setEverywhere s = .ok d') :
    d'.Throughout i (·.Has a value) := by
  obtain ⟨p, here, throughout⟩ := all
  obtain ⟨b, set, named, gives, -, parts⟩ := setEverywhere_gives done
  have other : a ≠ b := fun same => kept (same ▸ named)
  refine ⟨p.restyle set, ?_, ?_⟩
  · simp only [parts, List.getElem?_map, here, Option.map_some]
  · have agree := gives.others a other p.cursor.style
    exact throughout.moved ((agree.has_iff value).mp throughout.here)

theorem Throughout.leaf (all : d.Throughout i (·.Has a value)) {leaf : Form}
    (isLeaf : leaf.IsLeaf) (kept : ¬ leaf.LeafSets a) (done : apply leaf d = .ok d') :
    d'.Throughout i (·.Has a value) := by
  cases leaf with
  | sequence | repeated => exact isLeaf.elim
  | part decl =>
      rw [apply] at done
      exact all.declare done
  | setting s =>
      rw [apply] at done
      split at done
      · exact all.setEverywhere kept done
      · refine all.act ?_ done
        exact kept
  | _ =>
      rw [apply] at done
      refine all.act ?_ done
      exact kept

theorem Throughout.leaves (leaves : List Form) (isLeaf : ∀ leaf ∈ leaves, leaf.IsLeaf)
    (kept : ∀ leaf ∈ leaves, ¬ leaf.LeafSets a) {d : Draft} (all : d.Throughout i (·.Has a value))
    (done : applyAll leaves d = .ok d') : d'.Throughout i (·.Has a value) := by
  induction leaves generalizing d with
  | nil =>
      rw [applyAll] at done
      cases done
      exact all
  | cons leaf leaves ih =>
      rw [applyAll] at done
      cases first : apply leaf d with
      | error e =>
          rw [first] at done
          cases done
      | ok next =>
          rw [first] at done
          exact ih (fun leaf member => isLeaf leaf (List.mem_cons_of_mem _ member))
            (fun leaf member => kept leaf (List.mem_cons_of_mem _ member))
            (all.leaf (isLeaf leaf List.mem_cons_self) (kept leaf List.mem_cons_self) first) done

/-- What all voices of a part have, they have for as long as no form sets it. -/
theorem Throughout.goesOn (all : d.Throughout i (·.Has a value)) (on : GoesOn a d d') :
    d'.Throughout i (·.Has a value) := by
  induction on with
  | start => exact all
  | @form between after form before keeps done ih =>
      rw [← applyAll_unroll] at done
      exact Throughout.leaves form.unroll (fun _ => Form.isLeaf_of_mem_unroll form)
        (fun leaf member sets => keeps ⟨leaf, member, sets⟩) ih done
  | score before ih => exact ih.select []

/-- A part whose voice waits is selected, and can be switched to it. -/
theorem switches_of_waits (filed : Filed d) (ordered : Ordered d) {p : Part} {v : UInt32}
    (here : d.parts[i]? = some p) (waits : p.Waits v) :
    ∃ d', apply (.voice v) d = .ok d' ∧ d'.parts[i]? = some (p.voice v) := by
  have chosen : (⟨i⟩ : PartId) ∈ d.current := by
    rw [← ordered.numbered i p here]
    apply ordered.opened p (List.mem_of_getElem? here)
    obtain ⟨-, g, isOpen, -⟩ := waits
    rw [isOpen]
    exact Option.some_ne_none g
  rw [apply]
  rcases d.act_cases (.voice v) filed (List.ne_nil_of_mem chosen) with
    ⟨d', done, played⟩ | ⟨-, id, -, q, e, r, -, ran⟩
  · obtain ⟨events, q, ⟨own, there, ran⟩, after⟩ := played.each ⟨i⟩ chosen
    rw [here] at there
    cases there
    rw [Part.run_singleton] at ran
    cases ran
    exact ⟨d', done, after⟩
  · rw [Part.run_singleton] at ran
    cases ran

end

/-- A setting for every part gives the value to the styles of new parts and to every part where it
is. It lasts in a part just if the voices that wait there have the value already, since a voice that
waits is taken up with the cursor that it had. -/
theorem global_lasts_iff {d d' : Draft} {s : Setting} (reached : Reachable d)
    (everywhere : s.everywhere = true) (done : apply (.setting s) d = .ok d') :
    ∃ a, Attribute.ofName? s.name = some a ∧ d'.defaults.Has a s.value ∧
      d'.parts.length = d.parts.length ∧
      ∀ i p, d.parts[i]? = some p →
        d'.PlaysWith i a s.value ∧
        ((∀ d'', GoesOn a d' d'' → d''.PlaysWith i a s.value) ↔
          ∀ v, p.Waits v → (p.cursorOf v).style.Has a s.value) ∧
        ∀ v, p.Waits v → ∃ d'' q, apply (.voice v) d' = .ok d'' ∧ d''.parts[i]? = some q ∧
          q.cursor = p.cursorOf v := by
  simp only [apply, everywhere, true_or, ↓reduceIte] at done
  have filed := filed_setEverywhere reached.filed done
  have ordered := reached.ordered.setEverywhere done
  obtain ⟨a, set, named, gives, defaults, parts⟩ := setEverywhere_gives done
  refine ⟨a, named, defaults ▸ gives.has d.defaults, ?_, fun i p here => ?_⟩
  · rw [parts, List.length_map]
  have there : d'.parts[i]? = some (p.restyle set) := by
    rw [parts, List.getElem?_map, here]
    rfl
  have switched : ∀ v, p.Waits v → ∃ d'' q, apply (.voice v) d' = .ok d'' ∧
      d''.parts[i]? = some q ∧ q.cursor = p.cursorOf v := by
    intro v waits
    have still : (p.restyle set).Waits v := waits
    obtain ⟨d'', taken, after⟩ := switches_of_waits filed ordered there still
    refine ⟨d'', _, taken, after, ?_⟩
    rw [Part.cursor_voice _ waits.1, Part.restyle, waits.cursorOf]
  refine ⟨⟨_, there, Part.playsWith_of_has (gives.has _)⟩, ⟨fun lasts v waits => ?_, ?_⟩, switched⟩
  · -- switching sets nothing, so the value must have been there before
    obtain ⟨d'', q, taken, after, same⟩ := switched v waits
    have keeps : ¬ (Form.voice v).Sets a := by
      rintro ⟨leaf, member, sets⟩
      simp only [Form.unroll, List.mem_singleton] at member
      rw [member] at sets
      exact sets
    obtain ⟨q', after', plays⟩ := lasts d'' (.form .start keeps taken)
    rw [after] at after'
    cases after'
    rw [← same]
    exact plays.has
  · -- no voice has another value left that a switch could bring back
    intro waiting d'' on
    have all : (p.restyle set).Throughout (·.Has a s.value) :=
      (Part.throughout_restyle_iff gives.has).mpr waiting
    obtain ⟨q, after, throughout⟩ := Throughout.goesOn ⟨_, there, all⟩ on
    exact ⟨q, after, Part.playsWith_of_has throughout.here⟩

def duet : Draft := empty.writeAll [⟨.part, "violin: g"⟩, ⟨.part, "piano: V1: c V2: e"⟩]

def softer : Setting := ⟨"vol", 50, true⟩

theorem softer_lasts_in_violin :
    Reachable duet ∧ softer.everywhere = true ∧
      ∃ d', apply (.setting softer) duet = .ok d' ∧ d'.defaults.Has .volume 50 ∧
        (∀ d'', GoesOn .volume d' d'' → d''.PlaysWith 0 .volume 50) ∧
        d'.PlaysWith 1 .volume 50 ∧
        ¬ ∀ d'', GoesOn .volume d' d'' → d''.PlaysWith 1 .volume 50 := by
  have reached : Reachable duet := reachable_writeAll _
  have done : apply (.setting softer) duet = .ok _ := ok_getD (by decide +kernel) empty
  have closed : duet.parts[0]?.map (·.voices) = some none := by
    decide +kernel
  have isOpen : duet.parts[1]?.map (·.voices.map (·.active)) = some (some 2) := by
    decide +kernel
  have loud : duet.parts[1]?.map (fun p => (p.cursorOf 1).style.volume) = some .full := by
    decide +kernel
  obtain ⟨violin, first, closed⟩ := Option.map_eq_some_iff.mp closed
  obtain ⟨piano, second, isOpen⟩ := Option.map_eq_some_iff.mp isOpen
  obtain ⟨g, voices, active⟩ := Option.map_eq_some_iff.mp isOpen
  obtain ⟨a, named, defaults, -, each⟩ := global_lasts_iff reached rfl done
  have volume : Attribute.ofName? softer.name = some .volume := by decide
  rw [volume] at named
  cases named
  obtain ⟨-, lasts, -⟩ := each 0 violin first
  obtain ⟨now, fades, -⟩ := each 1 piano second
  refine ⟨reached, rfl, _, done, defaults, lasts.mpr ?_, now, fun all => ?_⟩
  · rintro v ⟨-, group, opened, -⟩
    rw [closed] at opened
    cases opened
  · have waits : piano.Waits 1 := by
      refine ⟨by decide, g, voices, ?_⟩
      rw [active]
      decide
    rw [second, Option.map_some, Option.some.injEq] at loud
    have soft : Percent.ofFloat? 50 = some (piano.cursorOf 1).style.volume := fades.mp all 1 waits
    rw [loud] at soft
    exact absurd soft (by decide +kernel)

/-- A voice that waits while the volume is set for every part: it goes on as loud as it was. -/
theorem waiting_voice_stays_loud :
    let opened : Passage := ⟨.part, "piano: V1: c V2: e"⟩
    let everywhere : Passage := ⟨.musicData, "(vol! 50)"⟩
    let back : Passage := ⟨.musicData, "V1: d"⟩
    (match Entry.musicData.read everywhere.text with
      | .ok [.setting s] => s.everywhere && s.name == "vol"
      | _ => false) = true ∧
      (empty.written [opened, everywhere, back]).length = 3 ∧
      (empty.writeAll [opened, everywhere]).defaults.volume.value = 50 ∧
      (empty.writeAll [opened, everywhere]).parts.map (·.cursor.style.volume.value) = [50] ∧
      (empty.writeAll [opened, everywhere, back]).parts.map (·.cursor.style.volume.value) = [100] ∧
      (empty.writeAll [opened, everywhere, back]).events.toList.map (·.volume) =
        [100, 100, 100] := by
  decide +kernel

end Draft

end Songline
