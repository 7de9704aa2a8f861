import Mathlib.Data.List.Induction
import Mathlib.Data.Prod.Lex
import Songline.Notation.Reading

set_option autoImplicit false

namespace Songline

namespace Grammar

/-- Asks about entries, one after another, until one is accepted. The world sees every question. -/
def consult {World : Type} (ask : Entry → World → Except SyntaxError (List Form) × World) :
    List Entry → World → Except (List (Entry × SyntaxError)) (Entry × List Form) × World
  | [], w => (.error [], w)
  | entry :: entries, w =>
    match ask entry w with
    | (.ok forms, w) => (.ok (entry, forms), w)
    | (.error e, w) =>
      let (later, w) := consult ask entries w
      (later.mapError ((entry, e) :: ·), w)

/-- The answers of a grammar, and a list of the entries that it was asked about. -/
def recorded (g : Grammar) (text : String) (entry : Entry) (asked : List Entry) :
    Except SyntaxError (List Form) × List Entry :=
  (g text entry, asked ++ [entry])

/-- What becomes of a text that may be read as some entries, and which of them have to be asked
about. -/
inductive Choice (g : Grammar) (text : String) (entries : List Entry) :
    Except (List (Entry × SyntaxError)) (Entry × List Form) → List Entry → Prop
  | accepted {before after : List Entry} {entry : Entry} {forms : List Form}
      (listed : entries = before ++ entry :: after)
      (refused : ∀ e ∈ before, ∃ error, g text e = .error error)
      (read : g text entry = .ok forms) :
      Choice g text entries (.ok (entry, forms)) (before ++ [entry])
  | rejected {attempts : List (Entry × SyntaxError)} (listed : entries = attempts.map Prod.fst)
      (refused : ∀ attempt ∈ attempts, g text attempt.1 = .error attempt.2) :
      Choice g text entries (.error attempts) entries

variable {g : Grammar} {text : String}

theorem exists_choice (g : Grammar) (text : String) (entries : List Entry) :
    ∃ result asked, Choice g text entries result asked := by
  induction entries with
  | nil => exact ⟨_, _, .rejected rfl fun _ member => absurd member List.not_mem_nil⟩
  | cons entry entries ih =>
      cases read : g text entry with
      | ok forms =>
          exact ⟨_, _, .accepted (List.nil_append _).symm
            (fun _ member => absurd member List.not_mem_nil) read⟩
      | error e =>
          obtain ⟨result, asked, later⟩ := ih
          cases later with
          | @accepted before after found forms listed refused accepted =>
              have whole : entry :: entries = (entry :: before) ++ found :: after := by
                rw [listed, List.cons_append]
              exact ⟨_, _, .accepted whole (List.forall_mem_cons.mpr ⟨⟨e, read⟩, refused⟩) accepted⟩
          | @rejected attempts listed refused =>
              have whole : entry :: entries = ((entry, e) :: attempts).map Prod.fst := by
                rw [listed, List.map_cons]
              exact ⟨_, _, .rejected whole (List.forall_mem_cons.mpr ⟨read, refused⟩)⟩

/-- The questions have no say in the answers. -/
theorem consult_recorded_fst (g : Grammar) (text : String) (entries asked : List Entry) :
    (consult (g.recorded text) entries asked).1 = g.firstOf text entries := by
  induction entries generalizing asked with
  | nil => rfl
  | cons entry entries ih =>
      rw [consult, recorded, firstOf]
      cases g text entry with
      | ok forms => rfl
      | error e => simp only [ih]

namespace Choice

variable {entries asked : List Entry}
  {result : Except (List (Entry × SyntaxError)) (Entry × List Form)}

/-- A choice is what comes of the questions, and they are those asked. -/
theorem consult_eq (choice : Choice g text entries result asked) (earlier : List Entry) :
    consult (g.recorded text) entries earlier = (result, earlier ++ asked) := by
  cases choice with
  | @accepted before after entry forms listed refused read =>
      subst listed
      induction before generalizing earlier with
      | nil =>
          rw [List.nil_append, consult, recorded, read]
          rfl
      | cons first before ih =>
          obtain ⟨⟨e, error⟩, later⟩ := List.forall_mem_cons.mp refused
          rw [List.cons_append, consult, recorded, error]
          simp only [ih (earlier ++ [first]) later, Except.mapError, List.append_assoc,
            List.cons_append, List.nil_append]
  | @rejected attempts listed refused =>
      subst listed
      induction attempts generalizing earlier with
      | nil =>
          rw [List.map_nil, consult, List.append_nil]
      | cons attempt attempts ih =>
          obtain ⟨error, later⟩ := List.forall_mem_cons.mp refused
          rw [List.map_cons, consult, recorded, error]
          simp only [ih (earlier ++ [attempt.1]) later, Except.mapError, List.append_assoc,
            List.singleton_append]

theorem firstOf_eq (choice : Choice g text entries result asked) :
    g.firstOf text entries = result := by
  rw [← consult_recorded_fst g text entries [], choice.consult_eq]

/-- Entries that nobody asks about make no difference. -/
theorem congr {other : Grammar} (choice : Choice g text entries result asked)
    (same : ∀ entry ∈ asked, other text entry = g text entry) :
    Choice other text entries result asked := by
  cases choice with
  | @accepted before after entry forms listed refused read =>
      have first : other text entry = g text entry := same entry (by simp)
      refine .accepted listed ?_ (first.trans read)
      intro e member
      rw [same e (List.mem_append_left _ member)]
      exact refused e member
  | @rejected attempts listed refused =>
      refine .rejected listed ?_
      intro attempt member
      have inside : attempt.1 ∈ entries := listed ▸ List.mem_map_of_mem member
      rw [same attempt.1 inside]
      exact refused attempt member

end Choice

end Grammar

namespace Position

/-- A place as a pair that is compared by line first, and by column where the lines are the same. -/
def key (p : Position) : Nat ×ₗ Nat := toLex (p.line, p.col)

theorem precedes_iff_key_lt (p q : Position) : p.precedes q = true ↔ p.key < q.key := by
  simp [precedes, key, Prod.Lex.toLex_lt_toLex]

end Position

namespace ReadingFailure

/-- The attempt with a number got as far as any, and further than those before it. -/
structure IsFurthest (attempts : List (Entry × SyntaxError)) (i : Nat)
    (attempt : Entry × SyntaxError) : Prop where
  here : attempts[i]? = some attempt
  furthest : ∀ a ∈ attempts, a.2.position.key ≤ attempt.2.position.key
  first : ∀ j < i, ∀ a, attempts[j]? = some a → a.2.position.key < attempt.2.position.key

namespace IsFurthest

variable {attempts : List (Entry × SyntaxError)} {i j : Nat} {attempt other : Entry × SyntaxError}

theorem unique (one : IsFurthest attempts i attempt) (two : IsFurthest attempts j other) :
    attempt = other := by
  rcases Nat.lt_trichotomy i j with less | rfl | more
  · have ahead := two.first i less attempt one.here
    exact absurd (one.furthest other (List.mem_of_getElem? two.here)) (not_le_of_gt ahead)
  · exact Option.some.inj (one.here.symm.trans two.here)
  · have ahead := one.first j more other two.here
    exact absurd (two.furthest attempt (List.mem_of_getElem? one.here)) (not_le_of_gt ahead)

/-- An attempt that got no further is passed over. -/
theorem concat_of_le (found : IsFurthest attempts i attempt)
    (le : other.2.position.key ≤ attempt.2.position.key) :
    IsFurthest (attempts ++ [other]) i attempt := by
  have inside : i < attempts.length := (List.getElem?_eq_some_iff.mp found.here).1
  refine ⟨?_, ?_, ?_⟩
  · rw [List.getElem?_append_left inside]
    exact found.here
  · intro a member
    rcases List.mem_append.mp member with earlier | last
    · exact found.furthest a earlier
    · rw [List.mem_singleton.mp last]
      exact le
  · intro j less a there
    rw [List.getElem?_append_left (less.trans inside)] at there
    exact found.first j less a there

/-- An attempt that got further takes the place. -/
theorem concat_of_lt (found : IsFurthest attempts i attempt)
    (lt : attempt.2.position.key < other.2.position.key) :
    IsFurthest (attempts ++ [other]) attempts.length other := by
  have ahead : ∀ a ∈ attempts, a.2.position.key < other.2.position.key :=
    fun a member => (found.furthest a member).trans_lt lt
  refine ⟨List.getElem?_concat_length, ?_, ?_⟩
  · intro a member
    rcases List.mem_append.mp member with earlier | last
    · exact (ahead a earlier).le
    · rw [List.mem_singleton.mp last]
  · intro j less a there
    rw [List.getElem?_append_left less] at there
    exact ahead a (List.mem_of_getElem? there)

theorem singleton (attempt : Entry × SyntaxError) : IsFurthest [attempt] 0 attempt := by
  refine ⟨rfl, ?_, fun j less => absurd less (Nat.not_lt_zero j)⟩
  intro a member
  rw [List.mem_singleton.mp member]

end IsFurthest

/-- One attempt after another is compared with the best before it. -/
theorem furthest_cases (attempts : List (Entry × SyntaxError)) :
    (attempts = [] ∧ furthest ⟨attempts⟩ = none) ∨
      ∃ attempt i, furthest ⟨attempts⟩ = some attempt ∧ IsFurthest attempts i attempt := by
  induction attempts using List.reverseRecOn with
  | nil => exact .inl ⟨rfl, rfl⟩
  | append_singleton attempts last ih =>
      have step : furthest ⟨attempts ++ [last]⟩ = further (furthest ⟨attempts⟩) last := by
        rw [furthest, List.foldl_append, List.foldl_cons, List.foldl_nil, furthest]
      rw [step]
      right
      rcases ih with ⟨rfl, none⟩ | ⟨best, i, some, found⟩
      · rw [none]
        exact ⟨last, 0, rfl, .singleton last⟩
      · rw [some, further]
        split
        · rename_i precedes
          have lt := (Position.precedes_iff_key_lt _ _).mp precedes
          exact ⟨last, _, rfl, found.concat_of_lt lt⟩
        · rename_i behind
          have le := not_lt.mp fun lt => behind ((Position.precedes_iff_key_lt _ _).mpr lt)
          exact ⟨best, i, rfl, found.concat_of_le le⟩

end ReadingFailure

/-- A text is read as the first entry that accepts it, without a question about those after it, and
they could be anything; if there is none, every failure is kept in its place. Of some failures, one
is told unless there are none: the first of those that got furthest, by line and then by column. -/
theorem Grammar.reading_or_furthest (g : Grammar) (text : String) (entries : List Entry) :
    (∃ asked, consult (g.recorded text) entries [] = (g.firstOf text entries, asked) ∧
      Choice g text entries (g.firstOf text entries) asked ∧
      ∀ other : Grammar, (∀ entry ∈ asked, other text entry = g text entry) →
        other.firstOf text entries = g.firstOf text entries) ∧
    ∀ failure : ReadingFailure, (failure.furthest = none ↔ failure.attempts = []) ∧
      ∀ attempt, failure.furthest = some attempt ↔
        ∃ i, ReadingFailure.IsFurthest failure.attempts i attempt := by
  constructor
  · obtain ⟨result, asked, choice⟩ := exists_choice g text entries
    rw [choice.firstOf_eq]
    exact ⟨asked, choice.consult_eq [], choice, fun other same => (choice.congr same).firstOf_eq⟩
  · rintro ⟨attempts⟩
    rcases ReadingFailure.furthest_cases attempts with ⟨rfl, none⟩ | ⟨best, i, some, found⟩
    · refine ⟨iff_of_true none rfl, fun attempt => iff_of_false ?_ ?_⟩
      · rw [none]
        exact (Option.some_ne_none attempt).symm
      · rintro ⟨i, found⟩
        cases found.here
    · rw [some]
      refine ⟨iff_of_false (Option.some_ne_none best) ?_, fun attempt => ?_⟩
      · rintro rfl
        cases found.here
      · constructor
        · rintro ⟨⟩
          exact ⟨i, found⟩
        · rintro ⟨j, other⟩
          exact congrArg Option.some (found.unique other)

/-- The standard grammar for music data, and one that takes every text as anything else. -/
def Grammar.lenient : Grammar := fun text entry =>
  if entry = .musicData then Grammar.standard text entry else .ok []

/-- What is wrong with a part that has a note of no such name. As a score it fails at the same
place. -/
def ReadingFailure.misspelt : ReadingFailure :=
  ⟨[(.musicData, ⟨.grammar (.unexpected (some (.name "piano"))), ⟨1, 1⟩⟩),
    (.part, ⟨.grammar (.unexpected (some (.name "q"))), ⟨1, 8⟩⟩),
    (.score, ⟨.grammar (.invalidPartName "q"), ⟨1, 8⟩⟩)]⟩

theorem Grammar.reading_or_furthest_melody :
    (∀ entry ∈ [Entry.musicData], lenient "c d" entry = standard "c d" entry) ∧
      lenient.firstOf "c d" Entry.byPriority = standard.firstOf "c d" Entry.byPriority ∧
      standard.firstOf "piano: q" Entry.byPriority = .error ReadingFailure.misspelt.attempts ∧
      ∃ i, ReadingFailure.IsFurthest ReadingFailure.misspelt.attempts i
        (.part, ⟨.grammar (.unexpected (some (.name "q"))), ⟨1, 8⟩⟩) := by
  obtain ⟨⟨asked, consulted, -, unasked⟩, furthest⟩ :=
    reading_or_furthest standard "c d" Entry.byPriority
  have questions : (consult (standard.recorded "c d") Entry.byPriority []).2 = [.musicData] := by
    decide +kernel
  have music : asked = [.musicData] := (congrArg Prod.snd consulted).symm.trans questions
  have same : ∀ entry ∈ [Entry.musicData], lenient "c d" entry = standard "c d" entry := by
    intro entry member
    rw [List.mem_singleton.mp member]
    rfl
  -- Forms are not compared here, so the failures are taken out before they are.
  have failures : (match standard.firstOf "piano: q" Entry.byPriority with
      | .error attempts => decide (attempts = ReadingFailure.misspelt.attempts)
      | .ok _ => false) = true := by
    decide +kernel
  have refused : standard.firstOf "piano: q" Entry.byPriority =
      .error ReadingFailure.misspelt.attempts := by
    split at failures
    · rename_i attempts result
      rw [result, of_decide_eq_true failures]
    · cases failures
  have told := (furthest ReadingFailure.misspelt).2
    (.part, ⟨.grammar (.unexpected (some (.name "q"))), ⟨1, 8⟩⟩)
  exact ⟨same, unasked lenient (music ▸ same), refused, told.mp (by decide +kernel)⟩

end Songline
