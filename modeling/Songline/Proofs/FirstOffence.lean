import Songline.Proofs.GrammarSound
import Songline.Proofs.TokenPlaces

set_option autoImplicit false

/- A syntax error stands at the first token that cannot be there. Some tokens lead from every state
of the reader to an end, so that what has been read is always the beginning of a text that is
accepted; and what is refused stays refused, whatever follows. Only where music is missing
altogether, this is reported from the first token on. -/
namespace Songline

namespace Reader

open Grammar

/-- Some tokens lead to an end. -/
def Completable (r : Reader) : Prop :=
  ∃ more last forms, r.feedAll more = .ok last ∧ last.finish = .ok forms

theorem Completable.of_feed {r next : Reader} {token : Token} (read : r.feed token = .ok next)
    (completable : next.Completable) : r.Completable := by
  obtain ⟨more, last, forms, fed, finished⟩ := completable
  refine ⟨token :: more, last, forms, ?_, finished⟩
  rw [feedAll_cons, read]
  exact fed

theorem outer_settle (r : Reader) : r.settle.outer = r.outer := by
  unfold settle
  split <;> rfl

theorem feed_fresh {r : Reader} (token : Token) (resting : r.Resting) (fresh : Fresh token) :
    r.feed token = r.settle.event token := by
  rw [feed_settle r token resting fresh, feed_of_events _ token resting]

/-- A text with some music ends once its open sequences are closed. -/
theorem completable_of_music (outer : List (List Form)) {r : Reader} (resting : r.Resting)
    (depth : r.outer = outer) (music : r.settle.forms ≠ []) : r.Completable := by
  -- On the sequences that are open: a bracket closes the innermost of them.
  induction outer generalizing r with
  | nil =>
      refine ⟨[], r, r.settle.forms.reverse, rfl, ?_⟩
      have closed : r.settle.outer = [] := (outer_settle r).trans depth
      rw [finish_settle r resting]
      unfold Resting at resting
      simp [finish, resting, settle_of_events _ resting, closed, music]
  | cons forms outer ih =>
      have opened : r.settle.outer = forms :: outer := (outer_settle r).trans depth
      let next : Reader := { r.settle with
        phase := .bracketed (.sequence r.settle.forms.reverse), forms := forms, outer := outer }
      have read : r.feed .closeBracket = .ok next := by
        rw [feed_fresh .closeBracket resting trivial]
        simp only [event, opened, next]
      refine Completable.of_feed read (ih rfl rfl ?_)
      exact List.cons_ne_nil _ _

theorem completable_of_resting {r : Reader} (resting : r.Resting) : r.Completable := by
  have read : r.feed .octaveUp = .ok (r.settle.push (.octave .up)) :=
    feed_fresh .octaveUp resting trivial
  exact .of_feed read (completable_of_music _ rfl rfl (List.cons_ne_nil _ _))

theorem completable_of_partNames {r : Reader} {names : List String}
    (named : r.phase = .partNames names) : r.Completable := by
  have read : r.feed .colon =
      .ok { r.push (.part ⟨names.reverse, none⟩) with declared := true } := by
    simp only [feed, named]
  exact .of_feed read (completable_of_resting rfl)

/-- A part may be called `la`. -/
theorem name_la (r : Reader) (names : List String) :
    r.name names "la" = .ok { r with phase := .partNames ("la" :: names) } := by
  have letters : isPartName "la" = true := by
    decide
  rw [Reader.name, if_pos letters]

theorem completable_of_pushSetting (r : Reader) (s : Setting) : (r.pushSetting s).Completable := by
  cases declared : r.declared with
  | true =>
      apply completable_of_resting
      simp [Resting, settle, pushSetting, declared]
  | false =>
      have read : (r.pushSetting s).feed (.name "la") =
          .ok { r.pushSetting s with phase := .partNames ["la"] } := by
        simp only [feed, pushSetting, declared, Bool.false_eq_true, ↓reduceIte, name_la]
      exact .of_feed read (completable_of_partNames rfl)

theorem completable_of_settingValue {r : Reader} {name : String}
    (named : r.phase = .settingValue name) : r.Completable := by
  have valued : r.feed (.number 0) = .ok { r with phase := .settingEnd name 0 } := by
    simp only [feed, named]
  have closed : Reader.feed { r with phase := .settingEnd name 0 } .closeParen =
      .ok (Reader.pushSetting { r with phase := .settingEnd name 0 } (settingOf name 0)) := rfl
  exact .of_feed valued (.of_feed closed (completable_of_pushSetting _ _))

/-- Every state of the reader can be completed. -/
theorem completable (r : Reader) : r.Completable := by
  cases phase : r.phase with
  | events | members seen | bracketed form =>
      apply completable_of_resting
      simp [Resting, settle, phase, push]
  | slashed seen =>
      have read : r.feed (.rest none) = .ok { r with phase := .members (.rest none :: seen) } := by
        simp only [feed, phase]
      exact .of_feed read (completable_of_resting rfl)
  | settingName =>
      have read : r.feed (.name "la") = .ok { r with phase := .settingValue "la" } := by
        simp only [feed, phase]
      exact .of_feed read (completable_of_settingValue rfl)
  | settingValue name => exact completable_of_settingValue phase
  | settingEnd name value =>
      have read : r.feed .closeParen = .ok (r.pushSetting (settingOf name value)) := by
        simp only [feed, phase]
      exact .of_feed read (completable_of_pushSetting _ _)
  | partName names =>
      have read : r.feed (.name "la") = .ok { r with phase := .partNames ("la" :: names) } := by
        simp only [feed, phase, name_la]
      exact .of_feed read (completable_of_partNames rfl)
  | partNames names => exact completable_of_partNames phase
  | partAlias names nick =>
      have read : r.feed .colon =
          .ok { r.push (.part ⟨names.reverse, some nick⟩) with declared := true } := by
        simp only [feed, phase]
      exact .of_feed read (completable_of_resting rfl)
  | preamble =>
      have read : r.feed (.name "la") = .ok { r with phase := .partNames ["la"] } := by
        simp only [feed, phase, name_la]
      exact .of_feed read (completable_of_partNames rfl)

/-- Music data of which no form has been read. -/
structure Unmusical (r : Reader) : Prop where
  entry : r.entry = .musicData
  closed : r.outer = []
  empty : r.forms = []

theorem name_ne_noMusic (r : Reader) (names : List String) (s : String) :
    r.name names s ≠ .error .noMusic := by
  unfold Reader.name
  split <;> nofun

theorem unmusical_of_event {r : Reader} {token : Token}
    (refused : r.event token = .error .noMusic) : r.Unmusical ∧ token = .closeBracket := by
  cases token with
  | closeBracket =>
      simp only [event] at refused
      split at refused
      · rename_i closed
        simp only [strayBracket, Except.error.injEq] at refused
        split at refused
        · rename_i entry
          split at refused
          · rename_i empty
            exact ⟨⟨entry, closed, List.isEmpty_iff.mp empty⟩, rfl⟩
          · cases refused
        · cases refused
        · cases refused
      · cases refused
  | name s =>
      simp only [event] at refused
      split at refused
      · exact absurd refused (r.name_ne_noMusic [] s)
      · cases refused
  | _ => cases refused

/-- Music is found missing at a closing bracket, where no event can have been read. -/
theorem unmusical_of_feed {r : Reader} {token : Token} (refused : r.feed token = .error .noMusic) :
    r.Resting ∧ r.settle.Unmusical ∧ token = .closeBracket := by
  cases phase : r.phase with
  | events =>
      have settled := settle_of_events r phase
      rw [feed_of_events r token phase] at refused
      rw [settled]
      exact ⟨resting_of_settle settled phase, unmusical_of_event refused⟩
  | members seen | bracketed form =>
      have resting : r.Resting := by
        simp [Resting, settle, phase, push]
      by_cases fresh : Fresh token
      · rw [feed_fresh token resting fresh] at refused
        exact ⟨resting, unmusical_of_event refused⟩
      · simp only [feed, phase] at refused
        cases token with
        | slash | times n => cases refused
        | _ => exact absurd trivial fresh
  | partName names | preamble =>
      simp only [feed, phase] at refused
      split at refused
      all_goals first
        | exact absurd refused (r.name_ne_noMusic _ _)
        | cases refused
  | _ =>
      simp only [feed, phase] at refused
      split at refused <;> cases refused

theorem unmusical_of_finish {r : Reader} (refused : r.finish = .error .noMusic) :
    r.Resting ∧ r.settle.Unmusical := by
  cases phase : r.phase with
  | events | members seen | bracketed form =>
      have resting : r.Resting := by
        simp [Resting, settle, phase, push]
      simp only [finish, phase] at refused
      split at refused
      · cases refused
      · rename_i closed
        split at refused
        · rename_i unmusical
          exact ⟨resting, unmusical.1, Decidable.not_not.mp closed,
            List.isEmpty_iff.mp unmusical.2⟩
        · cases refused
  | _ =>
      simp only [finish, phase] at refused
      cases refused

def Refuses (r : Reader) (fault : GrammarFault) : Option Token → Prop
  | some token => r.feed token = .error fault
  | none => r.finish = .error fault

end Reader

namespace TokenLine

/-- The tokens of a line, with its end as the last of them. -/
def symbols (line : TokenLine) : List (Option Token) := line.tokens.map (some ·.token) ++ [none]

/-- Before its first closing bracket, if it has one, a line holds barlines only. -/
def BarsOnly (line : TokenLine) : Prop :=
  ∀ token ∈ (line.tokens.map (·.token)).takeWhile (· ≠ .closeBracket), token = .barline

end TokenLine

/-- The lines that have a reading as an entry. -/
def Entry.Accepts (entry : Entry) (line : TokenLine) : Prop :=
  ∃ forms, line.read entry = .ok forms

/-- The first token of a line that cannot be where it is: an accepted line begins with the tokens
before it, and none with these and itself. -/
structure Entry.Offends (entry : Entry) (line : TokenLine) (k : Nat) : Prop where
  before : ∃ other, entry.Accepts other ∧ line.symbols.take k <+: other.symbols
  here : ∀ other, entry.Accepts other → ¬ line.symbols.take (k + 1) <+: other.symbols

namespace Reader

open Grammar

/-- A run that fails has read the tokens before the one that is refused. -/
theorem run_eq_error {r : Reader} {finish found : Position} {tokens : List Token.Placed}
    {fault : GrammarFault} (failed : r.run finish tokens = .error (fault, found)) :
    ∃ before symbol after last,
      TokenLine.symbols ⟨tokens, finish⟩ = before.map some ++ symbol :: after ∧
        (TokenLine.places ⟨tokens, finish⟩)[before.length]? = some found ∧
        r.feedAll before = .ok last ∧ last.Refuses fault symbol := by
  induction tokens generalizing r with
  | nil =>
      rw [run] at failed
      cases ended : r.finish with
      | ok forms =>
          rw [ended] at failed
          cases failed
      | error e =>
          rw [ended] at failed
          cases failed
          exact ⟨[], none, [], r, rfl, rfl, rfl, ended⟩
  | cons t tokens ih =>
      rw [run] at failed
      cases read : r.feed t.token with
      | error e =>
          rw [read] at failed
          cases failed
          exact ⟨[], some t.token, _, r, rfl, rfl, rfl, read⟩
      | ok next =>
          rw [read] at failed
          obtain ⟨before, symbol, after, last, split, place, fed, refused⟩ := ih failed
          refine ⟨t.token :: before, symbol, after, last, ?_, place, ?_, refused⟩
          · exact congrArg (some t.token :: ·) split
          · rw [feedAll_cons, read]
            exact fed

end Reader

namespace Grammar

/-- Where no form comes of items, they are barlines. -/
theorem barlines_of_items {tokens : List Token} {forms : List Form} :
    Items tokens forms → forms = [] → ∀ token ∈ tokens, token = .barline
  | .none, _ => fun token member => absurd member List.not_mem_nil
  | .barline items, empty => by
      intro token member
      rcases List.mem_append.mp member with before | last
      · exact barlines_of_items items empty token before
      · exact List.mem_singleton.mp last
  | .event _ _, empty => by simp at empty

end Grammar

namespace Entry

theorem accepts_iff (entry : Entry) (line : TokenLine) :
    entry.Accepts line ↔ ∃ last forms,
      (Reader.start entry).feedAll (line.tokens.map (·.token)) = .ok last ∧
        last.finish = .ok forms := by
  have runs : ∀ forms, line.read entry = .ok forms ↔
      (Reader.start entry).run line.finish line.tokens = .ok forms :=
    fun _ => Reader.mapError_eq_ok_iff _ _ _
  simp only [Accepts, runs, Reader.run_eq_ok_iff]
  exact exists_comm

end Entry

namespace TokenLine

theorem symbols_eq (line : TokenLine) :
    line.symbols = (line.tokens.map (·.token)).map some ++ [none] := by
  rw [symbols, List.map_map]
  rfl

/-- A token of a line stands among its tokens, and the end behind all of them. -/
theorem split_symbols (before : List Token) {tokens : List Token} {symbol : Option Token}
    {after : List (Option Token)}
    (split : tokens.map some ++ [none] = before.map some ++ symbol :: after) :
    (∃ token rest, symbol = some token ∧ tokens = before ++ token :: rest) ∨
      (symbol = none ∧ tokens = before) := by
  induction before generalizing tokens with
  | nil =>
      cases tokens with
      | nil =>
          cases split
          exact Or.inr ⟨rfl, rfl⟩
      | cons token rest =>
          cases split
          exact Or.inl ⟨token, rest, rfl, rfl⟩
  | cons first before ih =>
      cases tokens with
      | nil => simp at split
      | cons token tokens =>
          simp only [List.map_cons, List.cons_append, List.cons.injEq, Option.some.injEq] at split
          obtain ⟨rfl, split⟩ := split
          rcases ih split with ⟨found, rest, rfl, rfl⟩ | ⟨rfl, rfl⟩
          · exact Or.inl ⟨found, rest, rfl, rfl⟩
          · exact Or.inr ⟨rfl, rfl⟩

variable {entry : Entry} {before : List Token} {last : Reader}

/-- What has been read is the beginning of a line that is accepted. -/
theorem exists_accepted (fed : (Reader.start entry).feedAll before = .ok last) :
    ∃ other, entry.Accepts other ∧ before.map some <+: other.symbols := by
  obtain ⟨more, ended, forms, completed, finished⟩ := last.completable
  let other : TokenLine := ⟨(before ++ more).map (⟨·, .start⟩), .start⟩
  have tokens : other.tokens.map (·.token) = before ++ more := by
    simp [other, Function.comp_def]
  refine ⟨other, (entry.accepts_iff other).mpr ⟨ended, forms, ?_, finished⟩, ?_⟩
  · rw [tokens, Reader.feedAll_append_of_ok _ _ _ _ fed, completed]
  · rw [symbols_eq, tokens, List.map_append, List.append_assoc]
    exact List.prefix_append _ _

/-- What is refused is not accepted with anything behind it. -/
theorem not_accepts_of_refuses {fault : GrammarFault} {symbol : Option Token}
    (fed : (Reader.start entry).feedAll before = .ok last) (refused : last.Refuses fault symbol)
    {other : TokenLine} (accepted : entry.Accepts other) :
    ¬ before.map some ++ [symbol] <+: other.symbols := by
  rintro ⟨after, split⟩
  obtain ⟨ended, forms, read, finished⟩ := (entry.accepts_iff other).mp accepted
  rw [symbols_eq, List.append_assoc] at split
  rcases split_symbols before split.symm with ⟨token, rest, rfl, tokens⟩ | ⟨rfl, tokens⟩
  · have unread : last.feed token = .error fault := refused
    rw [tokens, Reader.feedAll_append_of_ok _ _ _ _ fed, Reader.feedAll_cons, unread] at read
    cases read
  · have unended : last.finish = .error fault := refused
    rw [tokens, fed] at read
    cases read
    rw [unended] at finished
    cases finished

/-- Music is missing behind barlines only. -/
theorem barlines_of_unmusical (fed : (Reader.start entry).feedAll before = .ok last)
    (resting : last.Resting) (unmusical : last.settle.Unmusical) :
    ∀ token ∈ before, token = .barline := by
  obtain ⟨-, spelt⟩ := Reader.spells_feedAll fed
  obtain ⟨declared, level⟩ := Reader.spells_settle spelt resting
  unfold Reader.At at level
  rw [declared, unmusical.entry, unmusical.closed] at level
  generalize latest : last.settle.forms = forms at level
  rw [unmusical.empty] at latest
  cases level with
  | outline outline =>
      cases outline with
      | musicData items =>
          exact Grammar.barlines_of_items items (List.reverse_eq_nil_iff.mp latest.symm)

theorem barsOnly_of_refuses {line : TokenLine} {symbol : Option Token}
    {after : List (Option Token)} (split : line.symbols = before.map some ++ symbol :: after)
    (fed : (Reader.start entry).feedAll before = .ok last)
    (refused : last.Refuses .noMusic symbol) : entry = .musicData ∧ line.BarsOnly := by
  have same : last.settle.entry = entry :=
    (Reader.entry_settle last).trans (Reader.spells_feedAll fed).1
  have unbracketed : (∀ token ∈ before, token = Token.barline) →
      ∀ token ∈ before, decide (token ≠ .closeBracket) = true := by
    intro bars token member
    rw [bars token member]
    rfl
  rw [symbols_eq] at split
  unfold BarsOnly
  rcases split_symbols before split with ⟨token, rest, rfl, tokens⟩ | ⟨rfl, tokens⟩
  · obtain ⟨resting, unmusical, rfl⟩ := Reader.unmusical_of_feed refused
    have bars := barlines_of_unmusical fed resting unmusical
    refine ⟨same.symm.trans unmusical.entry, ?_⟩
    rw [tokens, List.takeWhile_append_of_pos (unbracketed bars)]
    simpa using bars
  · obtain ⟨resting, unmusical⟩ := Reader.unmusical_of_finish refused
    have bars := barlines_of_unmusical fed resting unmusical
    refine ⟨same.symm.trans unmusical.entry, ?_⟩
    rw [tokens]
    exact fun token member => bars token ((List.takeWhile_sublist _).mem member)

theorem run_of_barsOnly (tokens : List Token.Placed) {finish : Position}
    (bars : BarsOnly ⟨tokens, finish⟩) :
    ∃ found, (Reader.start .musicData).run finish tokens = .error (.noMusic, found) := by
  induction tokens with
  | nil => exact ⟨finish, rfl⟩
  | cons t tokens ih =>
      by_cases bracket : t.token = .closeBracket
      · refine ⟨t.position, ?_⟩
        rw [Reader.run, bracket]
        rfl
      · unfold BarsOnly at bars ih
        simp only [List.map_cons, List.takeWhile_cons, bracket, ne_eq, not_false_eq_true,
          decide_true, ↓reduceIte, List.mem_cons, forall_eq_or_imp] at bars
        obtain ⟨found, failed⟩ := ih bars.2
        refine ⟨found, ?_⟩
        rw [Reader.run, bars.1]
        exact failed

theorem places_first (line : TokenLine) : line.places[0]? = some line.first := by
  unfold places first
  cases line.tokens <;> rfl

theorem offends_of_refuses {line : TokenLine} {fault : GrammarFault} {symbol : Option Token}
    {after : List (Option Token)} (split : line.symbols = before.map some ++ symbol :: after)
    (fed : (Reader.start entry).feedAll before = .ok last) (refused : last.Refuses fault symbol) :
    entry.Offends line before.length := by
  have upTo : line.symbols.take before.length = before.map some := by
    rw [split]
    exact List.take_left' (List.length_map _)
  have through : line.symbols.take (before.length + 1) = before.map some ++ [symbol] := by
    have there : line.symbols[before.length]? = some symbol := by
      simp [split]
    rw [List.take_add_one, upTo, there]
    rfl
  refine ⟨?_, fun other accepted => ?_⟩
  · rw [upTo]
    exact exists_accepted fed
  · rw [through]
    exact not_accepts_of_refuses fed refused accepted

/-- A line of tokens that cannot be read is refused at the place of one token, its end among them,
and this is the first that cannot be where it is. Only if there is nothing but barlines where music
should be, this is reported at the first token of all. -/
theorem error_at_first_offence {text : String} {line : TokenLine} {entry : Entry}
    {e : SyntaxError} (spelt : ofString text = .ok line) (rejected : line.read entry = .error e) :
    (e.fault = .grammar .noMusic ↔ entry = .musicData ∧ line.BarsOnly) ∧
      (e.fault = .grammar .noMusic →
        e.fault.message = "expected music data" ∧ line.places[0]? = some e.position) ∧
      (e.fault ≠ .grammar .noMusic →
        ∃ k, (∀ j, line.places[j]? = some e.position ↔ j = k) ∧ entry.Offends line k) := by
  unfold read at rejected
  cases ran : (Reader.start entry).run line.finish line.tokens with
  | ok forms =>
      rw [ran] at rejected
      cases rejected
  | error failure =>
      obtain ⟨fault, found⟩ := failure
      rw [ran] at rejected
      cases rejected
      obtain ⟨before, symbol, after, last, split, place, fed, refused⟩ := Reader.run_eq_error ran
      refine ⟨⟨fun missing => ?_, ?_⟩, fun missing => ?_, fun music => ?_⟩
      · cases missing
        exact barsOnly_of_refuses split fed refused
      · rintro ⟨rfl, bars⟩
        obtain ⟨_, failed⟩ := run_of_barsOnly line.tokens bars
        rw [failed] at ran
        cases ran
        rfl
      · cases missing
        exact ⟨rfl, line.places_first⟩
      -- As all places of a text are different, the reported one belongs to the refused token only.
      · have other : fault ≠ .noMusic := fun same => music (congrArg SyntaxFault.grammar same)
        have here : line.place fault found = found := by
          rw [TokenLine.place, if_neg other]
        refine ⟨before.length, fun j => ?_, offends_of_refuses split fed refused⟩
        simp only [here]
        constructor
        · intro same
          obtain ⟨inside, -⟩ := List.getElem?_eq_some_iff.mp same
          exact (List.getElem?_inj inside (nodup_places spelt)).mp (same.trans place.symm)
        · rintro rfl
          exact place

/-- A part declaration that stands in an open sequence. -/
def nested : TokenLine := ((ofString "piano: [c violin: d]").toOption).getD ⟨[], .start⟩

theorem violin_in_sequence :
    ofString "piano: [c violin: d]" = .ok nested ∧
      ∃ e, nested.read .score = .error e ∧ nested.places[4]? = some e.position ∧
        Entry.Offends .score nested 4 := by
  have spelt : ofString "piano: [c violin: d]" = .ok nested := by
    have succeeds : (ofString "piano: [c violin: d]").toOption.isSome = true := by
      decide +kernel
    unfold nested
    cases lexed : ofString "piano: [c violin: d]" with
    | error fault =>
        rw [lexed] at succeeds
        cases succeeds
    | ok line => rfl
  have fifth : nested.places[4]? = some ⟨1, 11⟩ := by
    decide +kernel
  have refused : (((nested.read .score).map fun _ => none).tryCatch
      fun e => .ok (some e.position)).toOption = some (some ⟨1, 11⟩) := by
    decide +kernel
  cases rejected : nested.read .score with
  | ok forms =>
      rw [rejected] at refused
      cases refused
  | error e =>
      rw [rejected] at refused
      have place := fifth.trans (Option.some.inj refused).symm
      obtain ⟨missing, -, first⟩ := error_at_first_offence spelt rejected
      have music : e.fault ≠ .grammar .noMusic := by
        intro same
        exact absurd (missing.mp same).1 (by decide)
      obtain ⟨k, unique, offends⟩ := first music
      rw [← (unique 4).mp place] at offends
      exact ⟨spelt, e, rfl, place, offends⟩

end TokenLine

end Songline
