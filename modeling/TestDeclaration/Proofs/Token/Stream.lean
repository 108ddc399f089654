import TestDeclaration.Token.Stream

/-!
# Streams give what a scan gives

Asked again and again, the stream of a text answers with the tokens of the text, then with the error
if there is one, and then with nothing.
-/

namespace TestDeclaration.Token

open Text

/-- The tokens of a text and then its error, if it has one. -/
def Scan.answers (s : Scan) : List (Except LexError Token) :=
  s.tokens.map .ok ++ s.error?.toList.map .error

namespace Stream

variable {s : Stream} {m n : Nat}

private theorem after_succ (s : Stream) (n : Nat) : s.after (n + 1) = (s.after n).next.2 := by
  induction n generalizing s with
  | zero => rfl
  | succ n ih => rw [after, ih, after]

/-- An answer that is no token. -/
def Ends (answer? : Option (Except LexError Token)) : Prop :=
  answer? = none ∨ ∃ e, answer? = some (.error e)

private theorem next_eq_closed (h : Ends s.next.1) : s.next.2 = .closed := by
  cases s with
  | closed => rfl
  | reading p text =>
    revert h
    simp only [next]
    split
    · exact fun _ ↦ rfl
    split
    · exact fun _ ↦ rfl
    · rintro (h | ⟨e, h⟩) <;> cases h

/-- A stream that is closed stays closed. -/
theorem after_eq_closed (hmn : m ≤ n) (h : s.after m = .closed) : s.after n = .closed := by
  induction hmn with
  | refl => exact h
  | step _ ih =>
    rw [after_succ, ih]
    rfl

/-- Behind the end and behind an error there is nothing more. -/
theorem answer?_eq_none (hmn : m < n) (h : Ends (s.answer? m)) : s.answer? n = none := by
  have hclosed : s.after (m + 1) = .closed := by
    rw [after_succ]
    exact next_eq_closed h
  rw [answer?, after_eq_closed hmn hclosed]
  rfl

private theorem answer?_closed (n : Nat) : closed.answer? n = none := by
  rw [answer?, after_eq_closed (Nat.zero_le n) rfl]
  rfl

private theorem answer?_zero (s : Stream) : s.answer? 0 = s.next.1 := rfl

private theorem answer?_succ (s : Stream) (n : Nat) : s.answer? (n + 1) = s.next.2.answer? n := rfl

private theorem answer?_reading (p : Position) (text : List Char) (n : Nat) :
    (reading p text).answer? n = (scanFrom p text).answers[n]? := by
  fun_induction scanFrom p text generalizing n with
  | case1 p text gap hrest =>
    have hnext : (reading p text).next = (none, .closed) := by simp only [next, gap, hrest]
    cases n with
    | zero => rw [answer?_zero, hnext]; rfl
    | succ n => rw [answer?_succ, hnext, answer?_closed]; rfl
  | case2 p text gap start c rest hrest problem k hone =>
    have hnext : (reading p text).next = (some (.error (errorAt problem
        (start.advance ((c :: rest).take k)) ((c :: rest).drop k))), .closed) := by
      simp only [next, gap, start, hrest, hone]
    cases n with
    | zero => rw [answer?_zero, hnext]; rfl
    | succ n => rw [answer?_succ, hnext, answer?_closed]; rfl
  | case3 p text gap start c rest hrest kind k hone lexeme _ others ih =>
    have hnext : (reading p text).next = (some (.ok ⟨kind, start, byteLength lexeme⟩),
        .reading (start.advance lexeme) ((c :: rest).drop k)) := by
      simp only [next, gap, start, lexeme, hrest, hone]
    cases n with
    | zero => rw [answer?_zero, hnext]; rfl
    | succ n => rw [answer?_succ, hnext, ih]; rfl

/-- The answers of the stream of a source are its tokens, then its error, and then nothing. -/
theorem answer?_ofSource (source : String) (n : Nat) :
    (ofSource source).answer? n = (scan source).answers[n]? :=
  answer?_reading _ _ n

end Stream

end TestDeclaration.Token
