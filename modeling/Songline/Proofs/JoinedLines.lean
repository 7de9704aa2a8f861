import Mathlib.Data.List.Induction
import Songline.Proofs.TokenPlaces

set_option autoImplicit false

namespace Songline

namespace Position

/-- The place after a text, counted: its line breaks, and what follows the last of them. -/
def behind (cs : List Char) : Position :=
  ⟨1 + cs.count '\n', 1 + (cs.reverse.takeWhile (· ≠ '\n')).length⟩

/-- The same place of a line that is some lines further down. -/
def down (p : Position) (k : Nat) : Position := ⟨p.line + k, p.col⟩

theorem behind_concat (cs : List Char) (c : Char) : behind (cs ++ [c]) = (behind cs).next c := by
  by_cases newline : c = '\n'
  · subst newline
    simp [behind, next, Nat.add_assoc]
  · simp [behind, next, newline, Nat.add_assoc]

theorem after_start (cs : List Char) : start.after cs = behind cs := by
  induction cs using List.reverseRecOn with
  | nil => rfl
  | append_singleton cs c ih =>
      rw [after_append, ih, behind_concat]
      rfl

theorem after_behind (cs ds : List Char) : (behind cs).after ds = behind (cs ++ ds) := by
  rw [← after_start, ← after_start, after_append]

theorem next_down (p : Position) (k : Nat) (c : Char) : (p.down k).next c = (p.next c).down k := by
  unfold next
  split
  · exact congrArg (Position.mk · 1) (Nat.add_right_comm p.line k 1)
  · rfl

theorem after_down (p : Position) (k : Nat) (cs : List Char) :
    (p.down k).after cs = (p.after cs).down k := by
  induction cs generalizing p with
  | nil => rfl
  | cons c cs ih => rw [after_cons, after_cons, next_down, ih]

/-- The line after a text starts as a file does. -/
theorem next_behind (cs : List Char) : (behind cs).next '\n' = start.down (1 + cs.count '\n') :=
  congrArg (Position.mk · 1) (Nat.add_comm _ _)

end Position

def Token.Placed.down (t : Token.Placed) (k : Nat) : Token.Placed := ⟨t.token, t.position.down k⟩

def SyntaxError.down (e : SyntaxError) (k : Nat) : SyntaxError := ⟨e.fault, e.position.down k⟩

namespace TokenLine

def down (line : TokenLine) (k : Nat) : TokenLine :=
  ⟨line.tokens.map (·.down k), line.finish.down k⟩

def append (line later : TokenLine) : TokenLine := ⟨line.tokens ++ later.tokens, later.finish⟩

/-- What is read of a text that starts further down: the same, further down. -/
theorem ofCharsAt_down (p : Position) (k : Nat) (cs : List Char) :
    ofCharsAt (p.down k) cs =
      match ofCharsAt p cs with
      | .ok line => .ok (line.down k)
      | .error e => .error (e.down k) := by
  induction cs using text_induction generalizing p with
  | ended cs ended =>
      rw [ofCharsAt_of_ended ended, ofCharsAt_of_ended ended, Position.after_down]
      rfl
  | fault cs c tail fault left failed =>
      rw [ofCharsAt_of_fault left failed, ofCharsAt_of_fault left failed, Position.after_down]
      rfl
  | lexeme cs c tail x left found ih =>
      rw [ofCharsAt_of_lexeme left found, ofCharsAt_of_lexeme left found, Position.after_down,
        Position.after_down, ih]
      cases ofCharsAt ((p.after (gap false cs).1).after x.spelling) x.rest <;> rfl

/-- A text of two lines has the tokens of the first, and those of the second where it starts. -/
theorem ofCharsAt_append_newline {p : Position} {cs : List Char} {line : TokenLine}
    (read : ofCharsAt p cs = .ok line) (more : List Char) :
    ofCharsAt p (cs ++ '\n' :: more) =
      (ofCharsAt ((p.after cs).next '\n') more).map line.append := by
  induction cs using text_induction generalizing p line with
  | ended cs ended =>
      -- All of the first line is a gap, in a comment or not, and goes on behind the break.
      rw [ofCharsAt_of_ended ended] at read
      cases read
      have leads : gap false (cs ++ '\n' :: more) =
          ((cs ++ ['\n']) ++ (gap false more).1, (gap false more).2) := by
        rw [gap_append_newline ended, List.append_assoc, List.singleton_append]
      rw [ofCharsAt_of_gap p leads, Position.after_append]
      change ofCharsAt ((p.after cs).next '\n') more = _
      cases ofCharsAt ((p.after cs).next '\n') more <;> rfl
  | fault cs c tail fault left failed =>
      rw [ofCharsAt_of_fault left failed] at read
      cases read
  | lexeme cs c tail x left found ih =>
      obtain ⟨later, rest, rfl⟩ := exists_later left found read
      have apart : Lexeme.Apart ('\n' :: more) := by
        rintro d ⟨⟩
        decide
      have gapped := gap_append_of_left left ('\n' :: more)
      have joined : (gap false (cs ++ '\n' :: more)).2 = c :: (tail ++ '\n' :: more) := by
        rw [gapped]
        rfl
      rw [ofCharsAt_of_lexeme joined (Lexeme.ofChars_append apart found), gapped, ih rest,
        after_gap_spelling left found]
      cases ofCharsAt ((p.after cs).next '\n') more <;> rfl

/-- From where the text `before` ends, `cs` has these tokens: each is a lexeme behind blanks and
comments, and its place is the one behind all the text in front of it. -/
inductive Laid : (before cs : List Char) → List Token.Placed → Prop
  | silence {before blank : List Char} (silent : gap false blank = (blank, [])) :
      Laid before blank []
  | token {before blank spelling rest : List Char} {c : Char} {t : Token}
      {tokens : List Token.Placed}
      (gapped : gap false (blank ++ c :: (spelling ++ rest)) = (blank, c :: (spelling ++ rest)))
      (read : Lexeme.ofChars c (spelling ++ rest) = .ok ⟨t, c :: spelling, rest⟩)
      (later : Laid (before ++ blank ++ c :: spelling) rest tokens) :
      Laid before (blank ++ c :: (spelling ++ rest))
        (⟨t, .behind (before ++ blank)⟩ :: tokens)

/-- The tokens of a text are laid out in it, and its end is behind all of it. -/
theorem laid_ofCharsAt {before cs : List Char} {line : TokenLine}
    (read : ofCharsAt (.behind before) cs = .ok line) :
    Laid before cs line.tokens ∧ line.finish = .behind (before ++ cs) := by
  induction cs using text_induction generalizing before line with
  | ended cs ended =>
      rw [ofCharsAt_of_ended ended, Position.after_behind] at read
      cases read
      have silent : gap false cs = (cs, []) := Prod.ext (gap_of_ended ended) ended
      exact ⟨.silence silent, rfl⟩
  | fault cs c tail fault left failed =>
      rw [ofCharsAt_of_fault left failed] at read
      cases read
  | lexeme cs c tail x left found ih =>
      obtain ⟨later, rest, rfl⟩ := exists_later left found read
      rw [Position.after_behind, Position.after_behind] at rest
      obtain ⟨laid, finish⟩ := ih rest
      rw [List.append_assoc, List.append_assoc, gap_spelling_rest left found] at finish
      refine ⟨?_, finish⟩
      obtain ⟨spelling, spelt, rfl⟩ := Lexeme.exists_spelling found
      obtain ⟨t, _, others⟩ := x
      cases spelt
      obtain ⟨blank, gapped⟩ : ∃ blank, gap false cs = (blank, c :: (spelling ++ others)) :=
        ⟨(gap false cs).1, Prod.ext rfl left⟩
      have whole := gap_append false cs
      rw [gapped] at whole laid
      subst whole
      rw [gapped, Position.after_behind]
      exact .token gapped found laid

/-- Lines are read one by one. A text behind a line break is read, or fails, as it does alone, as
many lines further down as there are above it. Every token is at the place behind the text in front
of it, and each of these places, the end of the text too, is behind the one before. -/
theorem lines_read_apart {s : String} {line : TokenLine} (read : ofString s = .ok line) :
    (∀ t, ofString (s ++ "\n" ++ t) =
        match ofString t with
        | .ok later => .ok (line.append (later.down (1 + s.toList.count '\n')))
        | .error e => .error (e.down (1 + s.toList.count '\n'))) ∧
      Laid [] s.toList line.tokens ∧ line.finish = .behind s.toList ∧
      line.places.Pairwise fun a b => a.precedes b := by
  refine ⟨fun t => ?_, ?_⟩
  · have joined : (s ++ "\n" ++ t).toList = s.toList ++ '\n' :: t.toList := by simp
    rw [ofString, joined, ofCharsAt_append_newline read, Position.after_start,
      Position.next_behind, ofCharsAt_down, ofString]
    cases ofCharsAt .start t.toList <;> rfl
  · have layout : Laid [] s.toList line.tokens ∧ line.finish = .behind s.toList :=
      laid_ofCharsAt read
    exact ⟨layout.1, layout.2, (places_ofCharsAt read).2⟩

/-- A comment ends with its line, and a fault in the line below is found there. -/
theorem comment_ends_with_line :
    ∃ line, ofString "c4 # (" = .ok line ∧
      ofString "c4 # (\n\nd8" =
        .ok (line.append ⟨[⟨.note ⟨'d', 0, some ⟨[⟨8, 0⟩]⟩⟩, ⟨3, 1⟩⟩], ⟨3, 3⟩⟩) ∧
      ofString "c4 # (\nd8 \"e" = .error ⟨.lexical .unclosedString, ⟨2, 4⟩⟩ ∧
      line.finish = ⟨1, 7⟩ := by
  have read : ofString "c4 # (" =
      .ok ⟨[⟨.note ⟨'c', 0, some ⟨[⟨4, 0⟩]⟩⟩, ⟨1, 1⟩⟩], ⟨1, 7⟩⟩ := by
    decide +kernel
  have below : ofString "\nd8" = .ok ⟨[⟨.note ⟨'d', 0, some ⟨[⟨8, 0⟩]⟩⟩, ⟨2, 1⟩⟩], ⟨2, 3⟩⟩ := by
    decide +kernel
  have unclosed : ofString "d8 \"e" = .error ⟨.lexical .unclosedString, ⟨1, 4⟩⟩ := by
    decide +kernel
  obtain ⟨joined, -, finish, -⟩ := lines_read_apart read
  have lower := joined "\nd8"
  have failed := joined "d8 \"e"
  rw [below] at lower
  rw [unclosed] at failed
  exact ⟨_, read, lower, failed, finish⟩

end TokenLine

end Songline
