import Songline.Score.Draft

set_option autoImplicit false

/- A line that begins with a declaration has its parts selected by that declaration, whatever was
selected before. So nothing hangs on when the old parts are let go: before the declaration, as a
score does, or by it. Letting go closes voices, and names are resolved without a look at voices. -/
namespace Songline.Draft

@[simp] theorem select_nicknames (d : Draft) (ids : List PartId) :
    (d.select ids).nicknames = d.nicknames := rfl

@[simp] theorem select_stock (d : Draft) (ids : List PartId) :
    (d.select ids).stock = d.stock := rfl

/-- The parts that are let go first are not let go again. -/
theorem select_of_deselected (d : Draft) (ids : List PartId) :
    (d.select []).select ids = d.select ids := by
  have nothing : distinct [] = [] := rfl
  simp [select, nothing]

/-- Letting parts go changes the player of none. -/
theorem player_deselect (d : Draft) (i : Nat) :
    (d.select []).parts[i]?.map (·.player) = d.parts[i]?.map (·.player) := by
  have kept : ∀ p : Part,
      (if d.current.contains p.id then p.closeVoices else p).player = p.player := by
    intro p
    by_cases selected : d.current.contains p.id
    · rw [if_pos selected]
      unfold Part.closeVoices
      split <;> rfl
    · rw [if_neg selected]
  simp only [select, List.getElem?_map, Option.map_map]
  apply Option.map_congr
  intro p _
  exact kept p

/-- An alias is compared with the instrument of its part, which outlasts all voices. -/
theorem instrument_select (d : Draft) (ids : List PartId) (i : Nat) :
    (d.select ids).parts[i]?.map (·.player.instrument) =
      d.parts[i]?.map (·.player.instrument) := by
  have players := congrArg (Option.map Player.instrument) (player_deselect d i)
  simp only [Option.map_map] at players
  exact players

/-- A new part has no voices to close. -/
theorem create_deselect (d : Draft) (instrument : Instrument) (name : String) :
    (d.select []).create instrument name =
      ((d.create instrument name).1, (d.create instrument name).2.select []) := by
  have fresh : ∀ (id : PartId) (player : Player) (style : Style),
      (Part.new id player style).closeVoices = Part.new id player style := fun _ _ _ => rfl
  simp only [create, select, List.length_map, List.map_append, List.map_cons, List.map_nil, fresh,
    ite_self]
  rfl

/-- What is resolved, in the draft that lets its parts go. -/
abbrev afterwards {α : Type} (resolved : α × Draft) : α × Draft :=
  (resolved.1, resolved.2.select [])

theorem resolve_deselect (d : Draft) (name : String) :
    (d.select []).resolve name = (d.resolve name).map afterwards := by
  unfold resolve
  rw [select_nicknames]
  cases known : d.nicknames.lookup name with
  | some ids => rfl
  | none =>
      cases found : Catalogue.find? name with
      | none => rfl
      | some instrument =>
          simp only [select_stock]
          cases filed : d.stock.lookup instrument.name with
          | some id => rfl
          | none =>
              simp only [create_deselect]
              rfl

theorem resolveAll_deselect (names : List String) (d : Draft) :
    (d.select []).resolveAll names = (d.resolveAll names).map afterwards := by
  induction names generalizing d with
  | nil => rfl
  | cons name names ih =>
      rw [resolveAll, resolveAll, resolve_deselect]
      cases d.resolve name with
      | error e => rfl
      | ok first =>
          simp only [Except.map, ih]
          cases first.2.resolveAll names <;> rfl

theorem resolveAlias_deselect (d : Draft) (name nick : String) :
    (d.select []).resolveAlias name nick = (d.resolveAlias name nick).map afterwards := by
  unfold resolveAlias
  cases found : Catalogue.find? name with
  | none => rfl
  | some instrument =>
      simp only [select_nicknames]
      cases known : d.nicknames.lookup nick with
      | none =>
          simp only [create_deselect]
          rfl
      | some ids =>
          rcases ids with _ | ⟨id, _ | ⟨second, more⟩⟩
          · rfl
          · simp only [instrument_select]
            by_cases same : d.parts[id.index]?.map (·.player.instrument) = some instrument.name
            · simp only [same, ↓reduceIte]
              rfl
            · simp only [same, ↓reduceIte]
              rfl
          · rfl

theorem nickname_deselect (d : Draft) (nick : String) (ids : List PartId) :
    (d.select []).nickname nick ids = (d.nickname nick ids).map (·.select []) := by
  unfold nickname
  rw [select_nicknames]
  cases d.nicknames.lookup nick with
  | none => rfl
  | some known =>
      by_cases same : known = ids
      · simp only [same, ↓reduceIte]
        rfl
      · simp only [same, ↓reduceIte]
        rfl

/-- A declaration lets go of the parts selected before it, if nothing else has. -/
theorem declare_deselect (d : Draft) (decl : PartDecl) :
    (d.select []).declare decl = d.declare decl := by
  rcases decl with ⟨names, nick⟩
  unfold declare
  split
  · rename_i name nick _ _
    rw [resolveAlias_deselect]
    cases d.resolveAlias name nick with
    | error e => rfl
    | ok resolved => simp only [Except.map, select_of_deselected]
  · rw [resolveAll_deselect]
    cases d.resolveAll names with
    | error e => rfl
    | ok resolved =>
        cases nick with
        | none => simp only [Except.map, select_of_deselected]
        | some nick =>
            simp only [Except.map, nickname_deselect]
            cases resolved.2.nickname nick resolved.1 with
            | error e => rfl
            | ok named => simp only [select_of_deselected]

/-- Forms that begin with a declaration are evaluated as a part just as they are as a score: with
the same draft, or with the same error. -/
theorem evaluate_part_eq_score (d : Draft) (decl : PartDecl) (rest : List Form) :
    d.evaluate .part (.part decl :: rest) = d.evaluate .score (.part decl :: rest) := by
  have begun : applyAll (.part decl :: rest) (d.select []) = applyAll (.part decl :: rest) d := by
    simp only [applyAll, apply, declare_deselect]
  simp only [evaluate, applyLine, begun]

end Songline.Draft
