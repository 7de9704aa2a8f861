import Mathlib.Logic.ExistsUnique
import Songline.Proofs.Lexemes
import Songline.Proofs.TextLines
import Songline.Session.Command

set_option autoImplicit false

namespace Songline

theorem Text.head?_trimChars (cs : List Char) :
    (trimChars cs).head? = (cs.dropWhile isBlank).head? := by
  rw [trimChars]
  cases start : cs.dropWhile isBlank with
  | nil => rfl
  | cons c rest =>
      have solid : isBlank c = false := dropWhile_head _ cs c (by rw [start]; rfl)
      have stays : ∀ d ∈ [c].head?, isBlank d = false := by
        rintro d ⟨⟩
        exact solid
      rw [List.reverse_cons, (Lexeme.span_append rest.reverse (Or.inr stays)).2,
        List.reverse_append]
      rfl

theorem Session.isSilent_trim_iff (line : String) :
    isSilent (Text.trim line) = true ↔
      (Text.trimChars line.toList).head? = none ∨
        (Text.trimChars line.toList).head? = some '#' := by
  simp [isSilent, Text.trim]

namespace TokenLine

/-- A comment goes on to the end of its line. -/
theorem gap_of_comment {cs : List Char} (oneLine : '\n' ∉ cs) : (gap true cs).2 = [] := by
  induction cs with
  | nil => rfl
  | cons c cs ih =>
      obtain ⟨other, rest⟩ := not_or.mp (mt List.mem_cons.mpr oneLine)
      have goesOn : decide (c ≠ '\n') = true := decide_eq_true (Ne.symm other)
      rw [gap, if_pos rfl, goesOn]
      exact ih rest

theorem gap_dropWhile (cs : List Char) :
    (gap false cs).2 = (gap false (cs.dropWhile Text.isBlank)).2 := by
  induction cs with
  | nil => rfl
  | cons c cs ih =>
      by_cases blank : Text.isBlank c = true
      · have other : c ≠ '#' := by
          rintro rfl
          cases blank
        simp [gap, blank, other, ih]
      · simp [blank]

/-- The tokens of a text begin with its first character, unless that is a blank or a comment's. -/
theorem exists_gap_of_head {cs : List Char} {c : Char}
    (first : (Text.trimChars cs).head? = some c) (other : c ≠ '#') :
    ∃ tail, (gap false cs).2 = c :: tail := by
  rw [Text.head?_trimChars] at first
  have solid := Text.dropWhile_head _ cs c first
  obtain ⟨tail, start⟩ := List.head?_eq_some_iff.mp first
  refine ⟨tail, ?_⟩
  rw [gap_dropWhile, start]
  simp [gap, solid, other]

/-- All of a line is a gap if it is silent. -/
theorem gap_ended_iff {line : String} (oneLine : '\n' ∉ line.toList) :
    (gap false line.toList).2 = [] ↔ Session.isSilent (Text.trim line) = true := by
  rw [Session.isSilent_trim_iff]
  constructor
  · intro ended
    cases first : (Text.trimChars line.toList).head? with
    | none => exact Or.inl rfl
    | some c =>
        by_cases comment : c = '#'
        · exact Or.inr (congrArg some comment)
        · obtain ⟨tail, left⟩ := exists_gap_of_head first comment
          rw [ended] at left
          cases left
  · rw [Text.head?_trimChars, gap_dropWhile]
    rintro (empty | comment)
    · rw [List.head?_eq_none_iff.mp empty]
      rfl
    · obtain ⟨tail, start⟩ := List.head?_eq_some_iff.mp comment
      have inside : '\n' ∉ tail := by
        intro member
        apply oneLine
        apply (List.dropWhile_suffix Text.isBlank).subset
        rw [start]
        exact List.mem_cons_of_mem '#' member
      rw [start]
      exact gap_of_comment inside

theorem no_tokens_iff {p : Position} {cs : List Char} :
    (∃ finish, ofCharsAt p cs = .ok ⟨[], finish⟩) ↔ (gap false cs).2 = [] := by
  constructor
  · rintro ⟨finish, read⟩
    cases left : (gap false cs).2 with
    | nil => rfl
    | cons c tail =>
        cases found : Lexeme.ofChars c tail with
        | error fault =>
            rw [ofCharsAt_of_fault left found] at read
            cases read
        | ok x =>
            obtain ⟨later, -, same⟩ := exists_later left found read
            cases same
  · intro ended
    exact ⟨p.after cs, ofCharsAt_of_ended ended⟩

end TokenLine

theorem Command.parse?_ne_none_iff (line : String) :
    parse? line ≠ none ↔ (Text.trimChars line.toList).head? = some ':' := by
  unfold parse?
  split
  · rename_i rest start
    simp [start]
  · rename_i other
    refine ⟨fun found => absurd rfl found, fun first => ?_⟩
    obtain ⟨rest, start⟩ := List.head?_eq_some_iff.mp first
    exact absurd start (other rest)

/-- Nothing that is read begins with a colon. -/
theorem Entry.rejects_colon {text : String}
    (first : (Text.trimChars text.toList).head? = some ':') (entry : Entry) :
    ∃ e, entry.read text = .error e := by
  obtain ⟨tail, left⟩ := TokenLine.exists_gap_of_head first (by decide)
  rw [Entry.read, TokenLine.ofString, TokenLine.ofCharsAt_of_lexeme left rfl]
  generalize TokenLine.ofCharsAt _ _ = others
  cases others with
  | error e => exact ⟨e, rfl⟩
  | ok later => cases entry <;> exact ⟨_, rfl⟩

namespace Session

/-- What becomes of a session with the resolver's answer to a text. -/
def follow (s : Session) (text : String) :
    Except ReadingFailure (Entry × List Form) × Entry →
      Except TurnError (Option Evaluated) × Session
  | (.error failure, context) => (.error (.reading failure), { s with context := context })
  | (.ok (entry, forms), context) =>
    match s.draft.evaluate entry forms with
    | .error e => (.error (.evaluation e), { s with context := context })
    | .ok draft =>
      (.ok (some ⟨entry, s.snapshot.added draft.snapshot⟩),
        ⟨context, draft, draft.snapshot, s.history ++ [text]⟩)

theorem evaluateLine_eq (s : Session) (line : String) :
    s.evaluateLine line =
      if isSilent (Text.trim line) then (.ok none, s)
      else s.follow (Text.trim line) (Grammar.standard.resolve s.context (Text.trim line)) := by
  unfold evaluateLine
  simp only
  split
  · rfl
  · generalize Grammar.standard.resolve s.context (Text.trim line) = resolved
    obtain ⟨_ | ⟨entry, forms⟩, context⟩ := resolved
    · rfl
    · cases evaluated : s.draft.evaluate entry forms <;> simp only [follow, evaluated]

theorem follow_ne_silence (s : Session) (text : String)
    (resolved : Except ReadingFailure (Entry × List Form) × Entry) :
    (s.follow text resolved).1 ≠ .ok none := by
  intro skipped
  obtain ⟨_ | ⟨entry, forms⟩, context⟩ := resolved
  · cases skipped
  · simp only [follow] at skipped
    cases evaluated : s.draft.evaluate entry forms with
    | error e =>
        rw [evaluated] at skipped
        cases skipped
    | ok draft =>
        rw [evaluated] at skipped
        cases skipped

/-- A session skips what is silent and nothing else. -/
theorem skips_iff (s : Session) (line : String) :
    (s.evaluateLine line).1 = .ok none ↔ isSilent (Text.trim line) = true := by
  rw [evaluateLine_eq]
  split
  · rename_i silent
    exact ⟨fun _ => silent, fun _ => rfl⟩
  · rename_i loud
    exact ⟨fun skipped => absurd skipped (follow_ne_silence s _ _),
      fun silent => absurd silent loud⟩

end Session

/-- What a line is, before it is read. -/
inductive LineKind
  | silence
  | command
  | phrase
deriving DecidableEq, Repr

/-- How a line of each kind is told: every session skips silence and hands a phrase to the resolver,
and a command is one for the shell, well-formed or not. -/
def LineKind.Of : LineKind → String → Prop
  | silence, line => ∀ s : Session, s.evaluateLine line = (.ok none, s)
  | command, line => Command.parse? line ≠ none
  | phrase, line =>
    Command.parse? line = none ∧ ∀ s : Session,
      s.evaluateLine line =
        s.follow (Text.trim line) (Grammar.standard.resolve s.context (Text.trim line))

namespace LineKind

theorem silence_iff (line : String) :
    silence.Of line ↔ Session.isSilent (Text.trim line) = true := by
  constructor
  · intro skipped
    exact (Session.skips_iff .fresh line).mp (congrArg Prod.fst (skipped .fresh))
  · intro silent s
    rw [Session.evaluateLine_eq, if_pos silent]

theorem phrase_iff (line : String) :
    phrase.Of line ↔
      Command.parse? line = none ∧ ¬ Session.isSilent (Text.trim line) = true := by
  constructor
  · rintro ⟨other, followed⟩
    refine ⟨other, fun silent => ?_⟩
    have skipped := (Session.skips_iff .fresh line).mpr silent
    rw [followed] at skipped
    exact Session.follow_ne_silence _ _ _ skipped
  · rintro ⟨other, loud⟩
    refine ⟨other, fun s => ?_⟩
    rw [Session.evaluateLine_eq, if_neg loud]

/-- No command is silent. -/
theorem loud_of_command {line : String} (commanded : command.Of line) :
    ¬ Session.isSilent (Text.trim line) = true := by
  rw [Session.isSilent_trim_iff, (Command.parse?_ne_none_iff line).mp commanded]
  decide

theorem exists_unique_kind (line : String) : ∃! kind : LineKind, kind.Of line := by
  by_cases silent : Session.isSilent (Text.trim line) = true
  · refine ⟨silence, (silence_iff line).mpr silent, ?_⟩
    intro kind same
    cases kind with
    | silence => rfl
    | command => exact absurd silent (loud_of_command same)
    | phrase => exact absurd silent ((phrase_iff line).mp same).2
  · by_cases commanded : command.Of line
    · refine ⟨command, commanded, ?_⟩
      intro kind same
      cases kind with
      | silence => exact absurd ((silence_iff line).mp same) silent
      | command => rfl
      | phrase => exact absurd same.1 commanded
    · refine ⟨phrase, (phrase_iff line).mpr ⟨Decidable.not_not.mp commanded, silent⟩, ?_⟩
      intro kind same
      cases kind with
      | silence => exact absurd ((silence_iff line).mp same) silent
      | command => exact absurd same commanded
      | phrase => rfl

/-- Every line without a newline is skipped just if it has no tokens, and none that can be read is
taken for a command. Each is silence, a command or a phrase, and no two of these; the commands are
the lines whose first character that is no blank is a colon. -/
theorem kinds_of_lines {line : String} (oneLine : '\n' ∉ line.toList) :
    (∀ s : Session, (s.evaluateLine line).1 = .ok none ↔
        ∃ finish, TokenLine.ofString line = .ok ⟨[], finish⟩) ∧
      (command.Of line → ∀ entry : Entry,
        (∃ e, entry.read line = .error e) ∧ ∃ e, entry.read (Text.trim line) = .error e) ∧
      (∃! kind : LineKind, kind.Of line) ∧
      (command.Of line ↔ (line.toList.dropWhile Text.isBlank).head? = some ':') := by
  refine ⟨fun s => ?_, fun commanded entry => ?_, exists_unique_kind line, ?_⟩
  · rw [Session.skips_iff, ← TokenLine.gap_ended_iff oneLine]
    exact TokenLine.no_tokens_iff.symm
  · have first := (Command.parse?_ne_none_iff line).mp commanded
    have trimmed : (Text.trimChars (Text.trim line).toList).head? = some ':' := by
      rwa [Text.trim, String.toList_ofList, Text.trimChars_trimChars]
    exact ⟨Entry.rejects_colon first entry, Entry.rejects_colon trimmed entry⟩
  · rw [← Text.head?_trimChars]
    exact Command.parse?_ne_none_iff line

/-- A comment with a colon in it, a command without the path it needs, and a line that has no
tokens because it fails. -/
theorem kinds_of_comment_and_command :
    '\n' ∉ "\t# :q c".toList ∧ '\n' ∉ " :save ".toList ∧ '\n' ∉ "\"c".toList ∧
      (∃ finish, TokenLine.ofString "\t# :q c" = .ok ⟨[], finish⟩) ∧
      (∀ entry : Entry, ∃ e, entry.read " :save " = .error e) ∧
      (Session.fresh.evaluateLine "\"c").1 ≠ .ok none ∧ phrase.Of "\"c" := by
  have comment : '\n' ∉ "\t# :q c".toList := by decide
  have save : '\n' ∉ " :save ".toList := by decide
  have unclosed : '\n' ∉ "\"c".toList := by decide
  have silent := ((kinds_of_lines comment).1 .fresh).mp rfl
  have rejected := (kinds_of_lines save).2.1 ((kinds_of_lines save).2.2.2.mpr (by decide))
  have failed : TokenLine.ofString "\"c" = .error ⟨.lexical .unclosedString, ⟨1, 1⟩⟩ :=
    TokenLine.ofCharsAt_of_fault (c := '"') rfl rfl
  have heard : (Session.fresh.evaluateLine "\"c").1 ≠ .ok none := by
    rw [ne_eq, (kinds_of_lines unclosed).1 .fresh, failed]
    rintro ⟨finish, ⟨⟩⟩
  have loud : ¬ Session.isSilent (Text.trim "\"c") = true := by decide
  exact ⟨comment, save, unclosed, silent, fun entry => (rejected entry).1, heard,
    (phrase_iff _).mpr ⟨rfl, loud⟩⟩

end LineKind

end Songline
