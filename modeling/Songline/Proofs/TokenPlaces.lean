import Songline.Proofs.Lexemes

set_option autoImplicit false

namespace Songline

namespace Position

theorem precedes_iff (p q : Position) :
    p.precedes q ↔ p.line < q.line ∨ (p.line = q.line ∧ p.col < q.col) := by
  simp [precedes]

theorem not_precedes_self (p : Position) : ¬ p.precedes p := by
  rw [precedes_iff]
  omega

theorem precedes_next (p : Position) (c : Char) : p.precedes (p.next c) := by
  rw [precedes_iff, next]
  by_cases newline : c = '\n'
  · rw [if_pos newline]
    exact Or.inl (Nat.lt_succ_self p.line)
  · rw [if_neg newline]
    exact Or.inr ⟨rfl, Nat.lt_succ_self p.col⟩

/-- Behind a place that is not behind another. -/
theorem precedes_of_precedes_of_not {p q r : Position} (first : p.precedes q)
    (second : ¬ r.precedes q) : p.precedes r := by
  rw [precedes_iff] at first second ⊢
  omega

theorem not_precedes_trans {p q r : Position} (first : ¬ q.precedes p) (second : ¬ r.precedes q) :
    ¬ r.precedes p := by
  rw [precedes_iff] at first second ⊢
  omega

theorem not_precedes_of_precedes {p q : Position} (first : p.precedes q) : ¬ q.precedes p := by
  rw [precedes_iff] at first ⊢
  omega

/-- A text never leads back. -/
theorem not_precedes_after (p : Position) (cs : List Char) : ¬ (p.after cs).precedes p := by
  induction cs generalizing p with
  | nil => exact not_precedes_self p
  | cons c cs ih =>
      rw [after_cons]
      exact not_precedes_trans (not_precedes_of_precedes (precedes_next p c)) (ih (p.next c))

theorem precedes_after (p : Position) {cs : List Char} (nonempty : cs ≠ []) :
    p.precedes (p.after cs) := by
  cases cs with
  | nil => exact absurd rfl nonempty
  | cons c cs =>
      rw [after_cons]
      exact precedes_of_precedes_of_not (precedes_next p c) (not_precedes_after (p.next c) cs)

end Position

namespace TokenLine

/-- The places of the tokens of a line, and of its end. -/
def places (line : TokenLine) : List Position := line.tokens.map (·.position) ++ [line.finish]

/-- From where a text starts, its tokens and its end come one behind the other. -/
theorem places_ofCharsAt {p : Position} {cs : List Char} {line : TokenLine}
    (spelt : ofCharsAt p cs = .ok line) :
    (∀ q ∈ line.places, ¬ q.precedes p) ∧ line.places.Pairwise fun a b => a.precedes b := by
  induction cs using text_induction generalizing p line with
  | ended cs ended =>
      rw [ofCharsAt_of_ended ended] at spelt
      cases spelt
      refine ⟨fun q member => ?_, List.pairwise_singleton _ _⟩
      rw [List.mem_singleton.mp member]
      exact p.not_precedes_after cs
  | fault cs c tail fault left failed =>
      rw [ofCharsAt_of_fault left failed] at spelt
      cases spelt
  | lexeme cs c tail x left found ih =>
      have gapped := p.not_precedes_after (gap false cs).1
      have forward := (p.after (gap false cs).1).precedes_after (Lexeme.spelling_ne_nil found)
      obtain ⟨later, more, rfl⟩ := exists_later left found spelt
      obtain ⟨behind, ordered⟩ := ih more
      have laterPlaces : ∀ q ∈ later.places, (p.after (gap false cs).1).precedes q :=
        fun q member => Position.precedes_of_precedes_of_not forward (behind q member)
      refine ⟨fun q member => ?_, List.pairwise_cons.mpr ⟨laterPlaces, ordered⟩⟩
      rcases List.mem_cons.mp member with rfl | member
      · exact gapped
      · exact Position.not_precedes_trans gapped
          (Position.not_precedes_of_precedes (laterPlaces q member))

/-- No two tokens of a text are at one place. -/
theorem nodup_places {text : String} {line : TokenLine} (spelt : ofString text = .ok line) :
    line.places.Nodup := by
  refine (places_ofCharsAt spelt).2.imp fun {a b} before same => ?_
  rw [same] at before
  exact b.not_precedes_self before

end TokenLine

end Songline
