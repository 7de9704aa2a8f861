import Songline.Proofs.CheckedDraft
import Songline.Proofs.CheckedReader
import Songline.Proofs.SessionRuns

set_option autoImplicit false

namespace Songline

namespace Text

theorem length_trim_le (s : String) : (trim s).length ≤ s.length := by
  have front := (List.dropWhile_suffix isBlank (l := s.toList)).length_le
  have back :=
    (List.dropWhile_suffix isBlank (l := (s.toList.dropWhile isBlank).reverse)).length_le
  rw [List.length_reverse] at back
  rw [← String.length_toList, ← String.length_toList, trim, String.toList_ofList, trimChars,
    List.length_reverse]
  exact Nat.le_trans back front

end Text

theorem Grammar.read_of_firstOf (g : Grammar) {text : String} {entries : List Entry}
    {entry : Entry} {forms : List Form} (found : g.firstOf text entries = .ok (entry, forms)) :
    g text entry = .ok forms := by
  induction entries with
  | nil => cases found
  | cons first entries ih =>
      rw [firstOf] at found
      cases read : g text first with
      | ok others =>
          rw [read] at found
          cases found
          exact read
      | error e =>
          rw [read] at found
          cases later : g.firstOf text entries with
          | error attempts =>
              rw [later] at found
              cases found
          | ok result =>
              rw [later] at found
              cases found
              exact ih later

/-- Reads and evaluates a line, with operations that cannot always be done. -/
def Checked.evaluateLine (s : Session) (line : String) :
    Checked (Except TurnError (Option Evaluated) × Session) :=
  let text := Text.trim line
  if Session.isSilent text then pure (.ok none, s)
  else do
    match ← firstOf text Entry.byPriority with
    | .error attempts => return (.error (.reading ⟨attempts⟩), s)
    | .ok (entry, forms) =>
      let s := { s with context := entry }
      match ← evaluate s.draft entry forms with
      | .error e => return (.error (.evaluation e), s)
      | .ok draft =>
        let snapshot := draft.snapshot
        let added := s.snapshot.added snapshot
        return (.ok (some ⟨entry, added⟩),
          { s with draft := draft, snapshot := snapshot, history := s.history ++ [text] })

namespace Session

theorem reachable_evaluateLine {s : Session} (reached : s.draft.Reachable) (line : String) :
    (s.evaluateLine line).2.draft.Reachable := by
  obtain ⟨answer, after, ends, outcome⟩ := exists_outcome s line
  rw [ends]
  cases outcome with
  | silent | unread | refused => exact reached
  | added loud read evaluated => exact reached.evaluate evaluated

/-- Whatever is done with a session, its draft is one that lines lead to. -/
theorem reachable_operateAll {World : Type} (ops : List (Operation World)) (s : Session) (w : World)
    (reached : s.draft.Reachable) : (s.operateAll w ops).1.draft.Reachable := by
  induction ops generalizing s w with
  | nil => exact reached
  | cons op ops ih =>
      apply ih
      rw [operate_session]
      cases op.line? with
      | none => exact .empty
      | some line =>
          rw [after]
          exact reachable_evaluateLine reached line

theorem checked_of_filed {s : Session} (filed : s.draft.Filed) {line : String}
    (short : line.length < 2 ^ 31) : Checked.evaluateLine s line = some (s.evaluateLine line) := by
  have short' : (Text.trim line).length < 2 ^ 31 :=
    Nat.lt_of_le_of_lt (Text.length_trim_le line) short
  unfold Checked.evaluateLine evaluateLine
  simp only
  split
  · rfl
  · simp only [Checked.firstOf_eq short', Grammar.resolve, Grammar.read, Option.bind_eq_bind,
      Option.bind_some]
    cases found : Grammar.standard.firstOf (Text.trim line) Entry.byPriority with
    | error attempts => rfl
    | ok result =>
        obtain ⟨entry, forms⟩ := result
        have limited := Entry.limited_of_read short' (Grammar.read_of_firstOf _ found)
        simp only [Except.mapError, Checked.evaluate_eq filed entry limited, Option.bind_some]
        cases s.draft.evaluate entry forms <;> rfl

/-- Whatever a session has been through, a line that is not too long is read and evaluated with
operations all of which can be done, and the answer is that of the session. The array of its tokens,
if it has any, has an entry for every number that the reader could ask for. -/
theorem evaluateLine_checked {World : Type} (ops : List (Operation World)) (w : World)
    (line : String) (short : line.length < 2 ^ 31) :
    let s := (fresh.operateAll w ops).1
    Checked.evaluateLine s line = some (s.evaluateLine line) ∧
      ∀ tokens, TokenLine.ofString (Text.trim line) = .ok tokens →
        ∀ pos, (Checked.peekAt (Checked.vector tokens) pos).isSome := by
  intro s
  have reached : s.draft.Reachable := reachable_operateAll ops fresh w .empty
  exact ⟨checked_of_filed reached.filed short, fun tokens _ pos => Checked.peekAt_isSome tokens pos⟩

/-- A line that names a part by an alias in use, with dots, ties and accidentals, and one that no
entry accepts. -/
theorem evaluateLine_checked_piano :
    let line := "piano \"é\": c+++4..~8 [a--]*3"
    let ops : List (Operation Unit) := [.evaluate line, .evaluate "piano: c]"]
    let s := (fresh.operateAll () ops).1
    line.length < 2 ^ 31 ∧ Checked.evaluateLine s line = some (s.evaluateLine line) := by
  intro line ops s
  have short : line.length < 2 ^ 31 := by decide
  have checked := evaluateLine_checked ops () line short
  exact ⟨short, checked.1⟩

end Session

end Songline
