import Songline.Proofs.PartOrder
import Songline.Proofs.VoiceIndependence

set_option autoImplicit false

namespace Songline

/-- What a setting can set. -/
inductive Attribute
  | tempo
  | octave
  | volume
  | quant
deriving DecidableEq, Repr

def Attribute.ofName? (name : String) : Option Attribute :=
  if name = "tempo" then some tempo
  else if name = "vol" ∨ name = "volume" then some volume
  else if name = "quant" ∨ name = "quantize" ∨ name = "quantization" then some quant
  else if name = "octave" then some octave
  else none

/-- What a value of an attribute does to a style, if the attribute takes the value. -/
def Attribute.put? (a : Attribute) (value : Float) : Option (Style → Style) :=
  match a with
  | tempo =>
    if 1.0 ≤ value ∧ value ≤ 1000.0 then some fun s => { s with tempo := value } else none
  | octave => (Style.octave? value).map fun octave s => { s with octave := octave }
  | volume => (Percent.ofFloat? value).map fun volume s => { s with volume := volume }
  | quant => (Percent.ofFloat? value).map fun quant s => { s with quant := quant }

namespace Style

/-- A setting is refused for its name or for its value. -/
theorem change_eq (name : String) (value : Float) :
    change name value =
      match Attribute.ofName? name with
      | none => .error (.unknownAttribute name)
      | some a =>
        match a.put? value with
        | none => .error (.outOfRange name value)
        | some set => .ok set := by
  unfold change Attribute.ofName?
  by_cases tempo : name = "tempo"
  · simp only [tempo, ↓reduceIte, Attribute.put?]
    by_cases accepted : 1.0 ≤ value ∧ value ≤ 1000.0
    · simp only [if_pos accepted]
    · simp only [if_neg accepted]
  · by_cases volume : name = "vol" ∨ name = "volume"
    · simp only [tempo, volume, ↓reduceIte, Attribute.put?]
      cases Percent.ofFloat? value <;> rfl
    · by_cases quant : name = "quant" ∨ name = "quantize" ∨ name = "quantization"
      · simp only [tempo, volume, quant, ↓reduceIte, Attribute.put?]
        cases Percent.ofFloat? value <;> rfl
      · by_cases octave : name = "octave"
        · simp only [tempo, volume, quant, ↓reduceIte, if_pos octave, Attribute.put?]
          cases octave? value <;> rfl
        · simp only [tempo, volume, quant, octave, ↓reduceIte]

/-- A style has the value that a setting gives an attribute. -/
def Has (s : Style) (a : Attribute) (value : Float) : Prop :=
  match a with
  | .tempo => s.tempo = value
  | .octave => octave? value = some s.octave
  | .volume => Percent.ofFloat? value = some s.volume
  | .quant => Percent.ofFloat? value = some s.quant

/-- An attribute is the same in two styles. -/
def Agree (s t : Style) (a : Attribute) : Prop :=
  match a with
  | .tempo => s.tempo = t.tempo
  | .octave => s.octave = t.octave
  | .volume => s.volume = t.volume
  | .quant => s.quant = t.quant

variable {s t u : Style} {a : Attribute}

theorem Agree.refl (s : Style) (a : Attribute) : s.Agree s a := by
  cases a <;> exact rfl

theorem Agree.trans (first : s.Agree t a) (second : t.Agree u a) : s.Agree u a := by
  cases a <;> exact Eq.trans first second

theorem Agree.has_iff (agree : s.Agree t a) (value : Float) : s.Has a value ↔ t.Has a value := by
  cases a <;> simp only [Agree] at agree <;> simp only [Has, agree]

theorem agree_withLength (s : Style) (length : Beat) (a : Attribute) :
    s.Agree { s with length := length } a := by
  cases a <;> exact rfl

theorem agree_withOctave (s : Style) (octave : Int) (other : a ≠ .octave) :
    s.Agree { s with octave := octave } a := by
  cases a with
  | octave => exact absurd rfl other
  | tempo | volume | quant => exact rfl

/-- A setting gives the attribute that it names the value, and no other attribute a new one. -/
structure Gives (set : Style → Style) (a : Attribute) (value : Float) : Prop where
  has : ∀ s : Style, (set s).Has a value
  others : ∀ b, b ≠ a → ∀ s : Style, s.Agree (set s) b

theorem gives_of_put? {a : Attribute} {value : Float} {set : Style → Style}
    (taken : a.put? value = some set) : Gives set a value := by
  cases a with
  | tempo =>
      simp only [Attribute.put?] at taken
      split at taken
      · cases taken
        refine ⟨fun s => rfl, fun b other s => ?_⟩
        cases b with
        | tempo => exact absurd rfl other
        | octave | volume | quant => exact rfl
      · cases taken
  | octave =>
      obtain ⟨octave, accepted, rfl⟩ := Option.map_eq_some_iff.mp taken
      exact ⟨fun s => accepted, fun b other s => s.agree_withOctave octave other⟩
  | volume =>
      obtain ⟨volume, accepted, rfl⟩ := Option.map_eq_some_iff.mp taken
      refine ⟨fun s => accepted, fun b other s => ?_⟩
      cases b with
      | volume => exact absurd rfl other
      | tempo | octave | quant => exact rfl
  | quant =>
      obtain ⟨quant, accepted, rfl⟩ := Option.map_eq_some_iff.mp taken
      refine ⟨fun s => accepted, fun b other s => ?_⟩
      cases b with
      | quant => exact absurd rfl other
      | tempo | octave | volume => exact rfl

theorem gives_of_change {name : String} {value : Float} {set : Style → Style}
    (done : change name value = .ok set) :
    ∃ a, Attribute.ofName? name = some a ∧ Gives set a value := by
  rw [change_eq] at done
  cases named : Attribute.ofName? name with
  | none =>
      rw [named] at done
      cases done
  | some a =>
      rw [named] at done
      cases taken : a.put? value with
      | none =>
          simp only [taken] at done
          cases done
      | some put =>
          simp only [taken] at done
          cases done
          exact ⟨a, rfl, gives_of_put? taken⟩

end Style

/-- The event of a note in a style, with the length that the note gives, if it gives one. -/
structure Event.Sounds (e : Event) (s : Style) (n : Note) : Prop where
  length : ∀ l, n.length = some l → Beat.ofLength l = .ok s.length
  pitch : Pitch.midi? n.letter n.accidentals s.octave = some e.pitch
  duration : e.duration = (s.length.atTempo s.tempo).percent s.quant.value
  volume : e.volume = s.volume.value

/-- The event of a note in a style but for the length of its notes. -/
def Event.SoundsIn (e : Event) (s : Style) (n : Note) : Prop :=
  ∃ t, (∀ a, s.Agree t a) ∧ e.Sounds t n

/-- Events of some notes, each in a style but for the length of its notes. -/
def Style.LaysOut (s : Style) (notes : List Note) (events : List Event) : Prop :=
  ∀ e ∈ events, ∃ n ∈ notes, e.SoundsIn s n

theorem Style.laysOut_nil (s : Style) (notes : List Note) : s.LaysOut notes [] :=
  fun _ laid => absurd laid List.not_mem_nil

/-- What is laid out after an attribute has been kept is laid out with it. -/
theorem Style.LaysOut.of_agree {s t : Style} {notes : List Note} {events : List Event}
    (laid : t.LaysOut notes events) (agree : ∀ a, s.Agree t a) : s.LaysOut notes events := by
  intro e here
  obtain ⟨n, listed, u, same, sounds⟩ := laid e here
  exact ⟨n, listed, u, fun a => (agree a).trans (same a), sounds⟩

theorem Style.LaysOut.append {s : Style} {notes others : List Note} {events more : List Event}
    (first : s.LaysOut notes events) (second : s.LaysOut others more) :
    s.LaysOut (notes ++ others) (events ++ more) := by
  intro e here
  rcases List.mem_append.mp here with early | late
  · obtain ⟨n, listed, sounds⟩ := first e early
    exact ⟨n, List.mem_append_left _ listed, sounds⟩
  · obtain ⟨n, listed, sounds⟩ := second e late
    exact ⟨n, List.mem_append_right _ listed, sounds⟩

def ChordMember.notes : ChordMember → List Note
  | .note n => [n]
  | .rest _ => []

namespace Move

def notes : Move → List Note
  | .note n => [n]
  | .chord ms => ms.flatMap ChordMember.notes
  | _ => []

def Sets (a : Attribute) : Move → Prop
  | .octave _ => a = .octave
  | .set name _ => Attribute.ofName? name = some a
  | _ => False

end Move

namespace Cursor

/-- An outcome keeps every attribute but some, and a result is as expected. -/
structure Keeps {α : Type} (c : Cursor) (sets : Attribute → Prop) (expected : α → Prop)
    (outcome : Except ScoreError α × Cursor) : Prop where
  style : ∀ a, ¬ sets a → c.style.Agree outcome.2.style a
  result : ∀ r, outcome.1 = .ok r → expected r

namespace Keeps

variable {α : Type} {c next : Cursor} {sets : Attribute → Prop} {expected : α → Prop}

theorem failed {e : ScoreError} (style : ∀ a, ¬ sets a → c.style.Agree next.style a) :
    Keeps c sets expected (.error e, next) := by
  refine ⟨style, fun r done => ?_⟩
  cases done

theorem done {r : α} (style : ∀ a, ¬ sets a → c.style.Agree next.style a) (good : expected r) :
    Keeps c sets expected (.ok r, next) := by
  refine ⟨style, fun other same => ?_⟩
  cases same
  exact good

end Keeps

theorem keeps_step (c : Cursor) (length : Option Length) :
    Keeps c (fun _ => False) (fun _ => True) (c.step length) := by
  have same : ∀ a, ¬ False → c.style.Agree c.style a := fun a _ => .refl c.style a
  unfold step
  split
  · exact .done same trivial
  · split
    · exact .failed same
    · rename_i beat _
      exact .done (fun a _ => c.style.agree_withLength beat a) trivial

/-- A written length is that of the style from then on. -/
theorem length_of_step {c next : Cursor} {l : Length} {stretch : Offset}
    (stepped : c.step (some l) = (.ok stretch, next)) :
    Beat.ofLength l = .ok next.style.length := by
  unfold step at stepped
  simp only at stepped
  split at stepped
  · cases stepped
  · rename_i beat counted
    cases stepped
    exact counted

theorem stretch_of_step {c next : Cursor} {length : Option Length} {stretch : Offset}
    (stepped : c.step length = (.ok stretch, next)) :
    stretch = next.style.length.atTempo next.style.tempo := by
  unfold step at stepped
  split at stepped
  · cases stepped
    rfl
  · split at stepped
    · cases stepped
    · cases stepped
      rfl

theorem keeps_sound (id : PartId) (c : Cursor) (n : Note) :
    Keeps c (fun _ => False) (fun laid => laid.1.SoundsIn c.style n) (c.sound id n) := by
  have kept := (keeps_step c n.length).style
  unfold sound
  rcases stepped : c.step n.length with ⟨e | stretch, next⟩
  · rw [stepped] at kept
    exact .failed kept
  · rw [stepped] at kept
    simp only
    split
    · exact .failed kept
    · rename_i pitch found
      refine .done kept ⟨next.style, fun a => kept a not_false, ?_⟩
      refine ⟨fun l written => ?_, found, ?_, rfl⟩
      · rw [written] at stepped
        exact length_of_step stepped
      · rw [stretch_of_step stepped]

theorem keeps_member (id : PartId) (c : Cursor) (m : ChordMember) :
    Keeps c (fun _ => False) (fun laid => c.style.LaysOut m.notes laid.1) (c.member id m) := by
  cases m with
  | note n =>
      have sounded := keeps_sound id c n
      simp only [member]
      generalize c.sound id n = outcome at sounded ⊢
      rcases outcome with ⟨e | ⟨e, stretch⟩, next⟩
      · exact .failed sounded.style
      · refine .done sounded.style fun other here => ⟨n, List.mem_singleton.mpr rfl, ?_⟩
        rw [List.mem_singleton.mp here]
        exact sounded.result _ rfl
  | rest length =>
      have stepped := keeps_step c length
      simp only [member]
      generalize c.step length = outcome at stepped ⊢
      rcases outcome with ⟨e | stretch, next⟩
      · exact .failed stepped.style
      · exact .done stepped.style (c.style.laysOut_nil _)

theorem keeps_members (id : PartId) (ms : List ChordMember) (c : Cursor)
    (shortest : Option Offset) :
    Keeps c (fun _ => False) (fun laid => c.style.LaysOut (ms.flatMap ChordMember.notes) laid.1)
      (c.members id shortest ms) := by
  induction ms generalizing c shortest with
  | nil => exact .done (fun a _ => .refl c.style a) (c.style.laysOut_nil _)
  | cons m ms ih =>
      have first := keeps_member id c m
      simp only [members]
      generalize c.member id m = outcome at first ⊢
      rcases outcome with ⟨e | ⟨events, stretch⟩, next⟩
      · exact .failed first.style
      · have rest := ih next (some ((shortest.map (·.min stretch)).getD stretch))
        simp only
        generalize next.members id _ ms = outcome at rest ⊢
        have style : ∀ a, ¬ False → c.style.Agree outcome.2.style a :=
          fun a kept => (first.style a kept).trans (rest.style a kept)
        rcases outcome with ⟨e | ⟨more, least⟩, last⟩
        · exact .failed style
        · have same : ∀ a, c.style.Agree next.style a := fun a => first.style a not_false
          exact .done style ((first.result _ rfl).append ((rest.result _ rfl).of_agree same))

theorem style_advance (c : Cursor) (stretch : Offset) : (c.advance stretch).2.style = c.style := by
  unfold advance
  split <;> rfl

theorem keeps_advanceAfter {c next : Cursor} {expected : List Event → Prop}
    (kept : ∀ a, ¬ False → c.style.Agree next.style a) (events : List Event) (stretch : Offset)
    (good : expected events) :
    Keeps c (fun _ => False) expected (next.advanceAfter events stretch) := by
  have same := style_advance next stretch
  unfold advanceAfter
  generalize next.advance stretch = outcome at same ⊢
  have style : ∀ a, ¬ False → c.style.Agree outcome.2.style a := by
    rw [same]
    exact kept
  rcases outcome with ⟨e | ⟨⟩, last⟩
  · exact .failed style
  · exact .done style good

theorem keeps_restyle {c : Cursor} {sets : Attribute → Prop} {notes : List Note}
    {change : Except ScoreError Style}
    (kept : ∀ s, change = .ok s → ∀ a, ¬ sets a → c.style.Agree s a) :
    Keeps c sets (c.style.LaysOut notes) (c.restyle change) := by
  cases change with
  | error e => exact .failed fun a _ => .refl c.style a
  | ok s => exact .done (kept s rfl) (c.style.laysOut_nil notes)

/-- A move keeps every attribute that it does not set, and lays its notes out as the style says. -/
theorem keeps_move (id : PartId) (c : Cursor) (m : Move) :
    Keeps c (fun a => m.Sets a) (c.style.LaysOut m.notes) (c.move id m) := by
  cases m with
  | note n =>
      have sounded := keeps_member id c (.note n)
      simp only [member] at sounded
      simp only [move]
      generalize c.sound id n = outcome at sounded ⊢
      rcases outcome with ⟨e | ⟨e, stretch⟩, next⟩
      · exact .failed sounded.style
      · exact keeps_advanceAfter sounded.style [e] stretch (sounded.result _ rfl)
  | rest length =>
      have stepped := keeps_step c length
      simp only [move]
      generalize c.step length = outcome at stepped ⊢
      rcases outcome with ⟨e | stretch, next⟩
      · exact .failed stepped.style
      · exact keeps_advanceAfter stepped.style [] stretch (c.style.laysOut_nil _)
  | chord ms =>
      have laid := keeps_members id ms c none
      simp only [move]
      generalize c.members id none ms = outcome at laid ⊢
      rcases outcome with ⟨e | ⟨events, _ | stretch⟩, next⟩
      · exact .failed laid.style
      · exact .done laid.style (laid.result _ rfl)
      · exact keeps_advanceAfter laid.style events stretch (laid.result _ rfl)
  | octave change =>
      refine keeps_restyle fun s done a kept => ?_
      have other : a ≠ .octave := kept
      unfold Style.changeOctave at done
      split at done
      · split at done
        · cases done
          exact c.style.agree_withOctave _ other
        · cases done
      · cases done
        exact c.style.agree_withOctave _ other
      · cases done
        exact c.style.agree_withOctave _ other
  | set name value =>
      refine keeps_restyle fun s done a kept => ?_
      unfold Style.set at done
      cases changed : Style.change name value with
      | error e =>
          rw [changed] at done
          cases done
      | ok set =>
          rw [changed] at done
          cases done
          obtain ⟨b, named, gives⟩ := Style.gives_of_change changed
          have other : a ≠ b := fun same => kept (same ▸ named)
          exact gives.others a other c.style

end Cursor

namespace Part

def Action.Sets (a : Attribute) : Action → Prop
  | .move m => m.Sets a
  | .voice _ | .closeVoices => False

/-- A voice of an open group that the part can be switched to: one that is parked, or that is still
to begin at the opening. -/
def Waits (p : Part) (v : UInt32) : Prop := v ≠ 0 ∧ ∃ g, p.voices = some g ∧ v ≠ g.active

/-- The styles of a part in the voice that it is in and in those that wait are of a kind. -/
structure Throughout (p : Part) (kind : Style → Prop) : Prop where
  here : kind p.cursor.style
  waiting : ∀ v, p.Waits v → kind (p.cursorOf v).style

variable {p : Part} {kind : Style → Prop}

/-- A voice that does not wait is where the part is. -/
theorem cursorOf_of_not_waits {v : UInt32} (positive : v ≠ 0) (active : ¬ p.Waits v) :
    p.cursorOf v = p.cursor := by
  cases voices : p.voices with
  | none => simp only [cursorOf, voices]
  | some g =>
      have same : v = g.active :=
        Decidable.not_not.mp fun other => active ⟨positive, g, voices, other⟩
      rw [same]
      exact cursorOf_active voices

theorem Throughout.voice_style (all : p.Throughout kind) {v : UInt32} (positive : v ≠ 0) :
    kind (p.cursorOf v).style := by
  by_cases waits : p.Waits v
  · exact all.waiting v waits
  · rw [cursorOf_of_not_waits positive waits]
    exact all.here

theorem throughout_of_closed (closed : p.voices = none) (here : kind p.cursor.style) :
    p.Throughout kind where
  here := here
  waiting := by
    rintro v ⟨-, g, isOpen, -⟩
    rw [closed] at isOpen
    cases isOpen

theorem Throughout.closeVoices (all : p.Throughout kind) : p.closeVoices.Throughout kind := by
  have same : p.closeVoices.cursor.style = p.cursor.style := by
    unfold Part.closeVoices
    split <;> rfl
  exact throughout_of_closed (voices_closeVoices p) (same ▸ all.here)

/-- A part that switches goes on where the voice is. -/
theorem cursor_voice (p : Part) {n : UInt32} (positive : n ≠ 0) :
    (p.voice n).cursor = p.cursorOf n := by
  cases voices : p.voices with
  | none => simp only [voice_of_closed voices positive, cursorOf, voices]
  | some g =>
      obtain ⟨after, isOpen, follows, -, unmoved⟩ := voice_of_open voices positive
      rw [← unmoved, ← cursorOf_active isOpen, follows.active]

theorem cursorOf_voice (p : Part) {n v : UInt32} (positive : n ≠ 0) :
    (p.voice n).cursorOf v = p.cursorOf v := by
  cases voices : p.voices with
  | none =>
      rw [cursorOf_voice_of_closed voices positive]
      simp only [cursorOf, voices]
  | some g =>
      obtain ⟨_, -, -, -, unmoved⟩ := voice_of_open voices positive
      exact unmoved v

theorem Throughout.voice (all : p.Throughout kind) (n : UInt32) : (p.voice n).Throughout kind := by
  by_cases zero : n = 0
  · have closes : p.voice n = p.closeVoices := by simp only [Part.voice, zero, ↓reduceIte]
    rw [closes]
    exact all.closeVoices
  · refine ⟨?_, fun v waits => ?_⟩
    · rw [cursor_voice p zero]
      exact all.voice_style zero
    · rw [cursorOf_voice p zero]
      exact all.voice_style waits.1

/-- A voice that waits is not heard of what is done at the cursor. -/
theorem Waits.cursorOf {v : UInt32} (waits : p.Waits v) (c : Cursor) :
    Part.cursorOf { p with cursor := c } v = p.cursorOf v := by
  obtain ⟨-, g, isOpen, other⟩ := waits
  rw [cursorOf_move isOpen c v, if_neg (Ne.symm other)]

theorem Throughout.moved (all : p.Throughout kind) {c : Cursor} (here : kind c.style) :
    Part.Throughout { p with cursor := c } kind where
  here := here
  waiting v waits := by
    have waited : p.Waits v := waits
    rw [waited.cursorOf c]
    exact all.waiting v waited

/-- What all voices of a part have, they have until it is set again. -/
theorem Throughout.act {a : Attribute} {value : Float} (all : p.Throughout (·.Has a value))
    {action : Action} (kept : ¬ action.Sets a) : (p.act action).2.Throughout (·.Has a value) := by
  cases action with
  | move m =>
      have agree := (Cursor.keeps_move p.id p.cursor m).style a kept
      exact all.moved ((agree.has_iff value).mp all.here)
  | voice n => exact all.voice n
  | closeVoices => exact all.closeVoices

/-- A new style reaches the voice that the part is in, and none that waits. -/
theorem throughout_restyle_iff {set : Style → Style} (reached : ∀ s, kind (set s)) :
    (p.restyle set).Throughout kind ↔ ∀ v, p.Waits v → kind (p.cursorOf v).style := by
  constructor
  · intro all v waits
    have waiting := all.waiting v waits
    rw [restyle, waits.cursorOf] at waiting
    exact waiting
  · refine fun waiting => ⟨reached _, fun v waits => ?_⟩
    have waited : p.Waits v := waits
    rw [restyle, waited.cursorOf]
    exact waiting v waited

end Part

end Songline
