import Songline.Proofs.DraftOrder
import Songline.Proofs.GrammarSound
import Songline.Proofs.Unrolling

set_option autoImplicit false

/- Texts that are written into a draft. As long as none has succeeded no part is selected, and from
the first that does there always is one: a text that drops the selection declares a part, a
declaration gives a name, and every name stands for some part. -/
namespace Songline

namespace Grammar

theorem admits_notes {admitted : PartDecl → Prop} {tokens : List Token} {form : Form}
    (derivation : Notes tokens form) : form.Admits admitted := by
  cases derivation <;> trivial

theorem admits_repeated {admitted : PartDecl → Prop} {tokens more : List Token}
    {single form : Form} (derivation : Repeated tokens single more form)
    (inner : single.Admits admitted) : form.Admits admitted := by
  cases derivation <;> exact inner

mutual

/-- There is no declaration in an event, so that every kind of declaration is admitted. -/
theorem admits_event {admitted : PartDecl → Prop} {tokens : List Token} {form : Form} :
    Event tokens form → form.Admits admitted
  | .notes derivation repeated => admits_repeated repeated (admits_notes derivation)
  | .octave _ | .octaveUp | .octaveDown | .setting _ | .voice _ => trivial
  | .sequence items repeated => admits_repeated repeated (admitsAll_items items)

theorem admitsAll_items {admitted : PartDecl → Prop} {tokens : List Token} {forms : List Form} :
    Items tokens forms → Form.AdmitsAll admitted forms
  | .none => trivial
  | .barline items => admitsAll_items items
  | .event items derivation =>
      (Form.admitsAll_append _ _).mpr ⟨admitsAll_items items, admits_event derivation, trivial⟩

end

/-- A declaration that gives a name. -/
def Named (decl : PartDecl) : Prop := decl.names ≠ []

theorem named_of_declaration {tokens : List Token} {decl : PartDecl}
    (derivation : Declaration tokens decl) : Named decl := by
  have given : ∀ {tokens : List Token} {names : List String}, Names tokens names → names ≠ [] := by
    intro tokens names derivation
    cases derivation <;> simp
  cases derivation with
  | plain names | nicknamed nick names => exact given names

/-- A part begins with its declaration. -/
theorem part_cases {tokens : List Token} {forms : List Form} (derivation : Part tokens forms) :
    ∃ decl rest, forms = .part decl :: rest ∧ Named decl ∧ Form.AdmitsAll Named rest := by
  cases derivation with
  | declared declaration items =>
      exact ⟨_, _, rfl, named_of_declaration declaration, admitsAll_items items⟩

theorem parts_cases {tokens : List Token} {forms : List Form} (derivation : Parts tokens forms) :
    ∃ decl rest, forms = .part decl :: rest ∧ Named decl ∧ Form.AdmitsAll Named rest := by
  induction derivation with
  | one part => exact part_cases part
  | more _ last ih =>
      obtain ⟨decl, rest, rfl, named, inner⟩ := ih
      obtain ⟨later, others, rfl, namedLater, innerLater⟩ := part_cases last
      refine ⟨decl, rest ++ .part later :: others, rfl, named, ?_⟩
      exact (Form.admitsAll_append _ _).mpr ⟨inner, namedLater, innerLater⟩

theorem admitsAll_attributes {admitted : PartDecl → Prop} {tokens : List Token}
    {forms : List Form} (derivation : Attributes tokens forms) :
    Form.AdmitsAll admitted forms := by
  induction derivation with
  | none => trivial
  | more _ _ ih => exact (Form.admitsAll_append _ _).mpr ⟨ih, trivial, trivial⟩

end Grammar

/-- A text, and what it is to be read as. -/
structure Passage where
  entry : Entry
  text : String

namespace Draft

open Grammar

/-- Reads a passage and goes on writing with it, if neither fails. -/
def write (d : Draft) (p : Passage) : Option Draft :=
  match p.entry.read p.text with
  | .error _ => none
  | .ok forms => (d.evaluate p.entry forms).toOption

/-- The draft after some passages. A passage that fails changes nothing. -/
def writeAll (d : Draft) : List Passage → Draft
  | [] => d
  | p :: ps =>
    match d.write p with
    | none => d.writeAll ps
    | some d => d.writeAll ps

def written (d : Draft) : List Passage → List Passage
  | [] => []
  | p :: ps =>
    match d.write p with
    | none => d.written ps
    | some d => p :: d.written ps

/-- No nickname stands for nothing. -/
def Answered (d : Draft) : Prop := ∀ entry ∈ d.nicknames, entry.2 ≠ []

theorem nicknames_resolve {d d' : Draft} {name : String} {ids : List PartId}
    (answered : Answered d) (done : d.resolve name = .ok (ids, d')) :
    d'.nicknames = d.nicknames ∧ ids ≠ [] := by
  unfold resolve at done
  split at done
  · rename_i known found
    cases done
    exact ⟨rfl, answered _ (mem_of_lookup found)⟩
  · split at done
    · cases done
    · split at done
      · cases done
        exact ⟨rfl, List.cons_ne_nil _ _⟩
      · cases done
        exact ⟨rfl, List.cons_ne_nil _ _⟩

theorem nicknames_resolveAll (names : List String) {d d' : Draft} {ids : List PartId}
    (answered : Answered d) (done : d.resolveAll names = .ok (ids, d')) :
    d'.nicknames = d.nicknames ∧ (names ≠ [] → ids ≠ []) := by
  induction names generalizing d ids with
  | nil =>
      cases done
      exact ⟨rfl, fun given => absurd rfl given⟩
  | cons name names ih =>
      rw [resolveAll] at done
      split at done
      · cases done
      · rename_i first next resolved
        split at done
        · cases done
        · rename_i more after rest
          cases done
          obtain ⟨same, some⟩ := nicknames_resolve answered resolved
          have answeredNext : Answered next := by
            rw [Answered, same]
            exact answered
          refine ⟨(ih answeredNext rest).1.trans same, fun _ none => ?_⟩
          exact some (List.append_eq_nil_iff.mp none).1

theorem Answered.withNickname {d d' : Draft} {nick : String} {ids : List PartId}
    (answered : Answered d) (some : ids ≠ []) (filed : d'.nicknames = (nick, ids) :: d.nicknames) :
    Answered d' := by
  intro entry member
  rw [filed] at member
  rcases List.mem_cons.mp member with rfl | old
  · exact some
  · exact answered entry old

theorem answered_resolveAlias {d d' : Draft} {name nick : String} {id : PartId}
    (answered : Answered d) (done : d.resolveAlias name nick = .ok (id, d')) : Answered d' := by
  unfold resolveAlias at done
  split at done
  · cases done
  · split at done
    · split at done
      · cases done
        exact answered
      · cases done
    · cases done
    · cases done
      exact answered.withNickname (List.cons_ne_nil _ _) rfl

theorem answered_nickname {d d' : Draft} {nick : String} {ids : List PartId}
    (answered : Answered d) (some : ids ≠ []) (done : d.nickname nick ids = .ok d') :
    Answered d' := by
  unfold nickname at done
  split at done
  · split at done
    · cases done
      exact answered
    · cases done
  · cases done
    exact answered.withNickname some rfl

theorem current_select_ne_nil (d : Draft) {ids : List PartId} (some : ids ≠ []) :
    (d.select ids).current ≠ [] := by
  obtain ⟨id, member⟩ := List.exists_mem_of_ne_nil ids some
  exact List.ne_nil_of_mem ((mem_distinct ids id).mpr member)

/-- A declaration that gives a name selects some part. -/
theorem answered_declare {d d' : Draft} {decl : PartDecl} (answered : Answered d)
    (named : Named decl) (done : d.declare decl = .ok d') : Answered d' ∧ d'.current ≠ [] := by
  unfold declare at done
  split at done
  · split at done
    · cases done
    · rename_i id next resolved
      cases done
      have kept : Answered next := answered_resolveAlias answered resolved
      exact ⟨kept, current_select_ne_nil next (List.cons_ne_nil _ _)⟩
  · split at done
    · cases done
    · rename_i ids next resolved
      obtain ⟨same, some⟩ := nicknames_resolveAll _ answered resolved
      have given : ids ≠ [] := some named
      have kept : Answered next := by
        rw [Answered, same]
        exact answered
      split at done
      · cases done
        exact ⟨kept, current_select_ne_nil next given⟩
      · split at done
        · cases done
        · rename_i after nicknamed
          cases done
          have last : Answered after := answered_nickname kept given nicknamed
          exact ⟨last, current_select_ne_nil after given⟩

/-- Where declarations give names, a selection is never lost but at the start of a line. -/
theorem steps_selected : FormSteps Named fun d d' =>
    Answered d → Answered d' ∧ (d.current ≠ [] → d'.current ≠ []) where
  refl _ answered := ⟨answered, fun selected => selected⟩
  trans first second answered := by
    obtain ⟨between, kept⟩ := first answered
    obtain ⟨last, keptLast⟩ := second between
    exact ⟨last, fun selected => keptLast (kept selected)⟩
  declare named done answered := by
    obtain ⟨last, selected⟩ := answered_declare answered named done
    exact ⟨last, fun _ => selected⟩
  setEverywhere done answered := by
    unfold setEverywhere at done
    split at done
    · cases done
    · cases done
      exact ⟨answered, fun selected => selected⟩
  act done answered := by
    have same := sameTables_act done
    rw [Answered, same.nicknames, same.current]
    exact ⟨answered, fun selected => selected⟩

/-- Forms that begin with a declaration leave some part selected. -/
theorem applyAll_declared {d d' : Draft} {decl : PartDecl} {rest : List Form}
    (answered : Answered d) (named : Named decl) (inner : Form.AdmitsAll Named rest)
    (done : applyAll (.part decl :: rest) d = .ok d') : Answered d' ∧ d'.current ≠ [] := by
  rw [applyAll, apply] at done
  cases declared : d.declare decl with
  | error e =>
      rw [declared] at done
      cases done
  | ok next =>
      rw [declared] at done
      obtain ⟨between, selected⟩ := answered_declare answered named declared
      obtain ⟨last, kept⟩ := steps_selected.applyAll rest inner done between
      exact ⟨last, kept selected⟩

/-- After a text that succeeds some part is selected. -/
theorem evaluate_selected {d d' : Draft} {entry : Entry} {tokens : List Token}
    {forms : List Form} (answered : Answered d) (derivation : Derives entry tokens forms)
    (done : d.evaluate entry forms = .ok d') : Answered d' ∧ d'.current ≠ [] := by
  unfold evaluate at done
  split at done
  · cases done
  · cases derivation with
    | musicData items music =>
        simp only [applyLine] at done
        split at done
        · cases done
        · rename_i selected
          rw [List.isEmpty_iff] at selected
          obtain ⟨last, kept⟩ :=
            steps_selected.applyAll forms (admitsAll_items items) done answered
          exact ⟨last, kept selected⟩
    | part part =>
        obtain ⟨decl, rest, rfl, named, inner⟩ := part_cases part
        exact applyAll_declared answered named inner done
    | @score _ _ settings further attributes parts =>
        -- the selection is dropped here, and the first part makes a new one
        obtain ⟨decl, rest, rfl, named, inner⟩ := parts_cases parts
        simp only [applyLine, applyAll_append] at done
        have dropped : Answered (d.select []) := answered
        cases set : applyAll settings (d.select []) with
        | error e =>
            rw [set] at done
            cases done
        | ok next =>
            rw [set] at done
            obtain ⟨between, -⟩ :=
              steps_selected.applyAll settings (admitsAll_attributes attributes) set dropped
            exact applyAll_declared between named inner done

theorem write_cases {d d' : Draft} {p : Passage} (done : d.write p = some d') :
    ∃ tokens forms, Derives p.entry tokens forms ∧ d.evaluate p.entry forms = .ok d' := by
  unfold write at done
  cases read : p.entry.read p.text with
  | error e =>
      rw [read] at done
      cases done
  | ok forms =>
      simp only [read] at done
      obtain ⟨line, -, derivation⟩ := (p.entry.read_eq_ok_iff p.text forms).mp read
      refine ⟨_, forms, derivation, ?_⟩
      cases evaluated : d.evaluate p.entry forms with
      | error e =>
          rw [evaluated] at done
          cases done
      | ok next =>
          rw [evaluated] at done
          cases done
          rfl

/-- What holds of a draft and is kept by every passage that succeeds holds after all passages. -/
theorem writeAll_induction {P : Draft → Prop}
    (step : ∀ {d d' p}, P d → d.write p = some d' → P d') (passages : List Passage) {d : Draft}
    (before : P d) : P (d.writeAll passages) := by
  induction passages generalizing d with
  | nil => exact before
  | cons p ps ih =>
      rw [writeAll]
      cases outcome : d.write p with
      | none => exact ih before
      | some next => exact ih (step before outcome)

theorem reachable_writeAll (passages : List Passage) : Reachable (empty.writeAll passages) := by
  refine writeAll_induction ?_ passages Reachable.empty
  intro d d' p reached done
  obtain ⟨tokens, forms, -, evaluated⟩ := write_cases done
  exact reached.evaluate evaluated

theorem answered_writeAll (passages : List Passage) : Answered (empty.writeAll passages) := by
  have nothing : Answered empty := fun entry member => absurd member List.not_mem_nil
  refine writeAll_induction ?_ passages nothing
  intro d d' p answered done
  obtain ⟨tokens, forms, derivation, evaluated⟩ := write_cases done
  exact (evaluate_selected answered derivation evaluated).1

theorem current_writeAll (passages : List Passage) {d : Draft} (answered : Answered d) :
    (d.writeAll passages).current = [] ↔ d.current = [] ∧ d.written passages = [] := by
  induction passages generalizing d with
  | nil => simp only [writeAll, written, and_true]
  | cons p ps ih =>
      rw [writeAll, written]
      cases outcome : d.write p with
      | none => exact ih answered
      | some next =>
          obtain ⟨tokens, forms, derivation, evaluated⟩ := write_cases outcome
          obtain ⟨between, selected⟩ := evaluate_selected answered derivation evaluated
          have rest := ih between
          simp only [rest, selected, false_and, List.cons_ne_nil, and_false]

/-- Everything that a draft files, selects and lays out is about parts that it has. -/
structure Consistent (d : Draft) : Prop extends Filed d, Ordered d where
  answered : ∀ entry ∈ d.nicknames, entry.2 ≠ []
  apart : ∀ entry ∈ d.stock, ∀ other ∈ d.stock, entry.2 = other.2 → entry.1 = other.1

/-- Stock names for the same part are the name of that part. -/
theorem Ordered.apart {d : Draft} (ordered : Ordered d) :
    ∀ entry ∈ d.stock, ∀ other ∈ d.stock, entry.2 = other.2 → entry.1 = other.1 := by
  intro entry member other memberOther same
  obtain ⟨instrument, -, named, p, here, player⟩ := ordered.players entry member
  obtain ⟨instrument', -, named', p', here', player'⟩ := ordered.players other memberOther
  rw [same, here'] at here
  cases here
  have names : instrument.name = instrument'.name :=
    congrArg Player.name (player.symm.trans player')
  rw [named, named', names]

/-- Whatever texts are written into it, and whichever of them fail, a draft is consistent, and no
part is selected just as long as none has succeeded. The number that a part has here tells it from
all others also in 32 bits, if there are no more than `2 ^ 32` (`Ordered.number_inj`). -/
theorem consistent_writeAll (passages : List Passage) :
    Consistent (empty.writeAll passages) ∧
      ((empty.writeAll passages).current = [] ↔ empty.written passages = []) := by
  have reached := reachable_writeAll passages
  have nothing : Answered empty := fun entry member => absurd member List.not_mem_nil
  refine ⟨?_, ?_⟩
  · exact {
      toFiled := reached.filed
      toOrdered := reached.ordered
      answered := answered_writeAll passages
      apart := reached.ordered.apart }
  · have selected := current_writeAll passages nothing
    have unselected : empty.current = [] := rfl
    simp only [selected, unselected, true_and]

end Draft

end Songline
