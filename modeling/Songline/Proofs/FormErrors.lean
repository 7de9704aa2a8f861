import Songline.Proofs.Attributes
import Songline.Proofs.NameMeaning

set_option autoImplicit false

namespace Songline

/-- Something that is wrong with a form, and not with the length of a line. -/
def ScoreError.OfForm : ScoreError → Prop
  | .tooLarge _ => False
  | _ => True

theorem Style.ofForm_change {name : String} {value : Float} {e : ScoreError}
    (failed : change name value = .error e) : e.OfForm := by
  rw [change_eq] at failed
  split at failed
  · cases failed
    trivial
  · split at failed
    · cases failed
      trivial
    · cases failed

namespace Cursor

variable {c next : Cursor} {e : ScoreError}

theorem ofForm_step {length : Option Length} (failed : c.step length = (.error e, next)) :
    e.OfForm := by
  unfold step at failed
  split at failed
  · cases failed
  · split at failed
    · cases failed
      trivial
    · cases failed

theorem ofForm_sound {id : PartId} {n : Note} (failed : c.sound id n = (.error e, next)) :
    e.OfForm := by
  unfold sound at failed
  split at failed
  · rename_i stopped
    cases failed
    exact ofForm_step stopped
  · split at failed
    · cases failed
      trivial
    · cases failed

theorem ofForm_member {id : PartId} {m : ChordMember}
    (failed : c.member id m = (.error e, next)) : e.OfForm := by
  unfold member at failed
  split at failed
  · split at failed
    · cases failed
    · rename_i stopped
      cases failed
      exact ofForm_sound stopped
  · split at failed
    · cases failed
    · rename_i stopped
      cases failed
      exact ofForm_step stopped

theorem ofForm_members {id : PartId} {ms : List ChordMember} {shortest : Option Offset}
    (failed : c.members id shortest ms = (.error e, next)) : e.OfForm := by
  induction ms generalizing c shortest with
  | nil => cases failed
  | cons m ms ih =>
      rw [members] at failed
      split at failed
      · rename_i stopped
        cases failed
        exact ofForm_member stopped
      · split at failed
        · rename_i stopped
          cases failed
          exact ih stopped
        · cases failed

theorem ofForm_advanceAfter {events : List Event} {step : Offset}
    (failed : c.advanceAfter events step = (.error e, next)) : e.OfForm := by
  unfold advanceAfter advance at failed
  cases sum : c.offset.add? step with
  | none =>
      rw [sum] at failed
      cases failed
      trivial
  | some offset =>
      rw [sum] at failed
      cases failed

theorem ofForm_changeOctave {s : Style} {change : OctaveChange}
    (failed : s.changeOctave change = .error e) : e.OfForm := by
  cases change with
  | set n =>
      simp only [Style.changeOctave] at failed
      split at failed
      · cases failed
      · cases failed
        trivial
  | up | down => cases failed

theorem ofForm_move {id : PartId} {m : Move} (failed : c.move id m = (.error e, next)) :
    e.OfForm := by
  unfold move at failed
  split at failed
  · split at failed
    · exact ofForm_advanceAfter failed
    · rename_i stopped
      cases failed
      exact ofForm_sound stopped
  · split at failed
    · exact ofForm_advanceAfter failed
    · rename_i stopped
      cases failed
      exact ofForm_step stopped
  · split at failed
    · exact ofForm_advanceAfter failed
    · cases failed
    · rename_i stopped
      cases failed
      exact ofForm_members stopped
  · rename_i change
    cases changed : c.style.changeOctave change with
    | ok style =>
        rw [changed] at failed
        cases failed
    | error fault =>
        rw [changed] at failed
        cases failed
        exact ofForm_changeOctave changed
  · rename_i name value
    unfold Style.set at failed
    cases changed : Style.change name value with
    | ok change =>
        rw [changed] at failed
        cases failed
    | error fault =>
        rw [changed] at failed
        cases failed
        exact Style.ofForm_change changed

end Cursor

namespace Draft

variable {d : Draft} {e : ScoreError}

theorem ofForm_actIn {a : Part.Action} {id : PartId} (failed : d.actIn a id = .error e) :
    e.OfForm := by
  unfold actIn at failed
  split at failed
  · cases failed
  · rename_i p _
    split at failed
    · rename_i stopped
      cases failed
      cases a with
      | move m =>
          have moved : (p.cursor.move p.id m).1 = .error e := congrArg Prod.fst stopped
          exact Cursor.ofForm_move (Prod.ext moved rfl)
      | voice n | closeVoices => cases stopped
    · cases failed

theorem ofForm_act {a : Part.Action} (failed : d.act a = .error e) : e.OfForm := by
  have each : ∀ (ids : List PartId) (d : Draft),
      ids.foldlM (fun d => d.actIn a) d = .error e → e.OfForm := by
    intro ids
    induction ids with
    | nil =>
        intro d failed
        cases failed
    | cons id ids ih =>
        intro d failed
        rw [List.foldlM_cons] at failed
        cases first : d.actIn a id with
        | error fault =>
            rw [first] at failed
            cases failed
            exact ofForm_actIn first
        | ok next =>
            rw [first] at failed
            exact ih next failed
  unfold act at failed
  split at failed
  · cases failed
    trivial
  · exact each d.current d failed

theorem ofForm_setEverywhere {s : Setting} (failed : d.setEverywhere s = .error e) :
    e.OfForm := by
  unfold setEverywhere at failed
  split at failed
  · rename_i refused
    cases failed
    exact Style.ofForm_change refused
  · cases failed

theorem ofForm_resolveAll {names : List String} (failed : d.resolveAll names = .error e) :
    e.OfForm := by
  obtain ⟨name, -, rfl⟩ := resolveAll_error names failed
  trivial

theorem ofForm_resolveAlias {name nick : String} (failed : d.resolveAlias name nick = .error e) :
    e.OfForm := by
  unfold resolveAlias at failed
  split at failed
  · cases failed
    trivial
  · split at failed
    · split at failed
      · cases failed
      · cases failed
        trivial
    · cases failed
      trivial
    · cases failed

theorem ofForm_nickname {nick : String} {ids : List PartId}
    (failed : d.nickname nick ids = .error e) : e.OfForm := by
  unfold nickname at failed
  split at failed
  · split at failed
    · cases failed
    · cases failed
      trivial
  · cases failed

theorem ofForm_declare {decl : PartDecl} (failed : d.declare decl = .error e) : e.OfForm := by
  unfold declare at failed
  split at failed
  · split at failed
    · rename_i refused
      cases failed
      exact ofForm_resolveAlias refused
    · cases failed
  · split at failed
    · rename_i refused
      cases failed
      exact ofForm_resolveAll refused
    · split at failed
      · cases failed
      · split at failed
        · rename_i refused
          cases failed
          exact ofForm_nickname refused
        · cases failed

theorem ofForm_iterate {step : Draft → Except ScoreError Draft}
    (once : ∀ {d}, step d = .error e → e.OfForm) (n : Nat) (failed : iterate step n d = .error e) :
    e.OfForm := by
  induction n generalizing d with
  | zero => cases failed
  | succ n ih =>
      rw [iterate] at failed
      cases first : step d with
      | error fault =>
          rw [first] at failed
          cases failed
          exact once first
      | ok next =>
          rw [first] at failed
          exact ih failed

mutual

theorem ofForm_apply : ∀ (form : Form) {d : Draft} {e : ScoreError},
    apply form d = .error e → e.OfForm
  | .part decl, _, _, failed => by
      rw [apply] at failed
      exact ofForm_declare failed
  | .sequence forms, _, _, failed => by
      rw [apply] at failed
      exact ofForm_applyAll forms failed
  | .repeated form times, _, _, failed => by
      rw [apply] at failed
      split at failed
      · cases failed
      · exact ofForm_iterate (ofForm_apply form) times.toNat failed
  | .setting s, _, _, failed => by
      rw [apply] at failed
      split at failed
      · exact ofForm_setEverywhere failed
      · exact ofForm_act failed
  | .note n, _, _, failed => by
      rw [apply] at failed
      exact ofForm_act failed
  | .rest l, _, _, failed => by
      rw [apply] at failed
      exact ofForm_act failed
  | .chord ms, _, _, failed => by
      rw [apply] at failed
      exact ofForm_act failed
  | .octave change, _, _, failed => by
      rw [apply] at failed
      exact ofForm_act failed
  | .voice n, _, _, failed => by
      rw [apply] at failed
      exact ofForm_act failed

/-- No form is ever too large. -/
theorem ofForm_applyAll : ∀ (forms : List Form) {d : Draft} {e : ScoreError},
    applyAll forms d = .error e → e.OfForm
  | [], _, _, failed => by
      rw [applyAll] at failed
      cases failed
  | form :: forms, d, _, failed => by
      rw [applyAll] at failed
      cases first : apply form d with
      | error fault =>
          rw [first] at failed
          cases failed
          exact ofForm_apply form first
      | ok next =>
          rw [first] at failed
          exact ofForm_applyAll forms failed

end

theorem ofForm_applyLine {entry : Entry} {forms : List Form}
    (failed : d.applyLine entry forms = .error e) : e.OfForm := by
  cases entry with
  | musicData =>
      simp only [applyLine] at failed
      split at failed
      · cases failed
        trivial
      · exact ofForm_applyAll forms failed
  | part | score => exact ofForm_applyAll forms failed

end Draft

end Songline
