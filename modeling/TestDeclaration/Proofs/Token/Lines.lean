import TestDeclaration.Proofs.Text.Position
import TestDeclaration.Proofs.Token.LineEnd
import TestDeclaration.Proofs.Token.RoundTrip

/-!
# Reading line by line

The tokens of some lines do not depend on the lines below them, and those lines have the tokens that
they have alone, further down. An error of the first lines stays where it is.
-/

namespace TestDeclaration

open Text
open LineEnding (unify_append_of_not_mem unify_eq_self)

/-! ### Further down -/

/-- The same column of a later line, with more bytes in front. -/
def Text.Position.down (bytes lines : Nat) (p : Position) : Position :=
  ⟨p.offset + bytes, p.line + lines, p.column⟩

/-- A span that starts further down. -/
def Text.Span.down (bytes lines : Nat) (s : Span) : Span := ⟨s.start.down bytes lines, s.length⟩

/-- An error further down. -/
def LexError.down (bytes lines : Nat) (e : LexError) : LexError :=
  ⟨e.problem, e.span.down bytes lines⟩

namespace Text.Position

variable {bytes lines : Nat}

private theorem next_down (p : Position) (c : Char) :
    (p.down bytes lines).next c = (p.next c).down bytes lines := by
  unfold next
  split <;> simp only [down, Nat.add_right_comm]

private theorem advance_down (p : Position) (text : List Char) :
    (p.down bytes lines).advance text = (p.advance text).down bytes lines := by
  induction text generalizing p with
  | nil => rfl
  | cons c text ih => rw [advance_cons, advance_cons, next_down, ih]

/-- Behind the end of a line one is in the first column. -/
theorem advance_start_newline (text : List Char) :
    start.advance (text ++ ['\n']) = start.down (byteLength text + 1) (text.count '\n' + 1) := by
  have hsize : '\n'.utf8Size = 1 := rfl
  rw [advance_start]
  simp [behind, start, down, byteLength_append, hsize, Nat.add_comm, Nat.add_left_comm]

end Text.Position

namespace Token

/-- A token further down. -/
def down (bytes lines : Nat) (t : Token) : Token := ⟨t.kind, t.span.down bytes lines⟩

/-- A scan of a text that starts further down. -/
def Scan.down (bytes lines : Nat) (s : Scan) : Scan :=
  ⟨s.tokens.map (Token.down bytes lines), s.error?.map (LexError.down bytes lines)⟩

variable {p : Position} {c : Char} {text rest : List Char} {problem : LexProblem} {n : Nat}

/-- Behind the layout no token can be read. -/
theorem scanFrom_of_error (h : text.drop (layoutLength false text) = c :: rest)
    (hone : one c rest = .error (problem, n)) :
    let start := p.advance (text.take (layoutLength false text))
    scanFrom p text = ⟨[], some (errorAt problem (start.advance ((c :: rest).take n))
      ((c :: rest).drop n))⟩ := by
  intro start
  rw [scanFrom]
  split
  · next heq =>
    rw [h] at heq
    cases heq
  · next heq =>
    rw [h] at heq
    cases heq
    split
    · next hone' =>
      rw [hone] at hone'
      cases hone'
      rfl
    · next hone' =>
      rw [hone] at hone'
      cases hone'

/-- Further down a text has the same tokens and the same error, further down. -/
theorem scanFrom_down (bytes lines : Nat) (p : Position) (text : List Char) :
    scanFrom (p.down bytes lines) text = (scanFrom p text).down bytes lines := by
  fun_induction scanFrom p text with
  | case1 p text gap hrest => exact scanFrom_of_layout hrest
  | case2 p text gap start c rest hrest problem n hone =>
    have hscan := scanFrom_of_error (p := p.down bytes lines) hrest hone
    rw [hscan, Position.advance_down, Position.advance_down]
    rfl
  | case3 p text gap start c rest hrest kind n hone lexeme _ others ih =>
    have hscan := scanFrom_of_one (p := p.down bytes lines) hrest hone
    dsimp only at hscan
    rw [Position.advance_down, Position.advance_down, ih] at hscan
    rw [hscan]
    rfl

/-! ### Lines -/

variable (text rest)

private theorem layoutLength_le (inComment : Bool) : layoutLength inComment text ≤ text.length := by
  induction text generalizing inComment with
  | nil => exact Nat.le_refl 0
  | cons c text ih =>
    have htrue := ih true
    have hfalse := ih false
    have hcont := ih (c != '\n')
    rw [List.length_cons]
    cases inComment with
    | true =>
      rw [layoutLength]
      omega
    | false =>
      rw [layoutLength]
      split
      · omega
      split <;> omega

/-- Layout up to the end of a text goes on behind the end of its last line, and other layout does
not depend on what follows. -/
theorem layoutLength_newline (inComment : Bool) :
    layoutLength inComment (text ++ '\n' :: rest) =
      if layoutLength inComment text = text.length then text.length + 1 + layoutLength false rest
      else layoutLength inComment text := by
  induction text generalizing inComment with
  | nil => cases inComment <;> simp [layoutLength, isBlank]
  | cons c text ih =>
    have hcolon := head?_newline text rest (d := ':') (by decide)
    rw [List.cons_append]
    cases inComment with
    | true =>
      rw [layoutLength, layoutLength, ih, List.length_cons]
      split <;> split <;> omega
    | false =>
      rw [layoutLength, layoutLength, ih, ih, List.length_cons]
      simp only [hcolon]
      by_cases hblank : isBlank c
      · rw [if_pos hblank, if_pos hblank]
        split <;> split <;> omega
      rw [if_neg hblank, if_neg hblank]
      by_cases hcolons : c = ':' ∧ text.head? = some ':'
      · rw [if_pos hcolons, if_pos hcolons]
        split <;> split <;> omega
      · rw [if_neg hcolons, if_neg hcolons, if_neg (Nat.succ_ne_zero _).symm]

/-- Layout is passed over, if it does not become other layout with what follows. -/
theorem scanFrom_append {gap : List Char}
    (h : layoutLength false (gap ++ rest) = gap.length + layoutLength false rest) :
    scanFrom p (gap ++ rest) = scanFrom (p.advance gap) rest := by
  have hdrop : (gap ++ rest).drop (layoutLength false (gap ++ rest)) =
      rest.drop (layoutLength false rest) := by
    rw [h, List.drop_length_add_append]
  have htake : p.advance ((gap ++ rest).take (layoutLength false (gap ++ rest))) =
      (p.advance gap).advance (rest.take (layoutLength false rest)) := by
    rw [h, List.take_length_add_append, Position.advance_append]
  cases hrest : rest.drop (layoutLength false rest) with
  | nil => rw [scanFrom_of_layout (hdrop.trans hrest), scanFrom_of_layout hrest]
  | cons c others =>
    rcases hone : one c others with ⟨problem, n⟩ | ⟨kind, n⟩
    · rw [scanFrom_of_error (hdrop.trans hrest) hone, scanFrom_of_error hrest hone, htake]
    · rw [scanFrom_of_one (hdrop.trans hrest) hone, scanFrom_of_one hrest hone, htake]

/-- What stands behind the layout in front of a token does so with more lines below. -/
theorem drop_take_newline {behind : List Char}
    (h : text.drop (layoutLength false text) = c :: behind) :
    let gap := layoutLength false (text ++ '\n' :: rest)
    (text ++ '\n' :: rest).drop gap = c :: (behind ++ '\n' :: rest) ∧
      (text ++ '\n' :: rest).take gap = text.take (layoutLength false text) := by
  intro gap
  have hne : layoutLength false text ≠ text.length := by
    intro heq
    rw [heq, List.drop_length] at h
    cases h
  have hgap : gap = layoutLength false text :=
    (layoutLength_newline text rest false).trans (if_neg hne)
  have hle := layoutLength_le text false
  rw [hgap, List.drop_append_of_le_length hle, List.take_append_of_le_length hle, h]
  exact ⟨rfl, rfl⟩

/-- The character of an error at the end of the text is the newline, if there is one. -/
theorem errorAt_newline (problem : LexProblem) (p : Position) :
    errorAt problem.atNewline p (text ++ '\n' :: rest) = (errorAt problem p text).atNewline := by
  cases text with
  | nil => rfl
  | cons c text =>
    have hsize := c.utf8Size_pos
    simp only [errorAt, LexError.atNewline, List.cons_append, List.take_succ_cons, List.take_zero,
      byteLength_cons, byteLength_nil, Nat.add_zero, Nat.max_eq_left hsize]

/-- Some lines were scanned, and the scan goes on with the lines behind them, unless it has found an
error. -/
def Scan.andBelow (s below : Scan) : Scan :=
  match s.error? with
  | none => ⟨s.tokens ++ below.tokens, below.error?⟩
  | some e => ⟨s.tokens, some e.atNewline⟩

private theorem Scan.andBelow_cons (t : Token) (s below : Scan) :
    andBelow ⟨t :: s.tokens, s.error?⟩ below =
      ⟨t :: (s.andBelow below).tokens, (s.andBelow below).error?⟩ := by
  unfold andBelow
  dsimp only
  split <;> rfl

/-- Scanning a text with lines below it is scanning the text, and then these lines. -/
theorem scanFrom_newline (p : Position) :
    scanFrom p (text ++ '\n' :: rest) =
      (scanFrom p text).andBelow (scanFrom (p.advance (text ++ ['\n'])) rest) := by
  fun_induction scanFrom p text with
  | case1 p text gap hrest =>
    have hlength : layoutLength false text = text.length :=
      Nat.le_antisymm (layoutLength_le text false) (List.drop_eq_nil_iff.mp hrest)
    have hlayout := layoutLength_newline text rest false
    rw [if_pos hlength, ← List.singleton_append, ← List.append_assoc] at hlayout
    rw [← List.singleton_append, ← List.append_assoc]
    exact scanFrom_append rest (by simpa using hlayout)
  | case2 p text gap start c behind hrest problem n hone =>
    obtain ⟨hdrop, htake⟩ := drop_take_newline text rest hrest
    have hn : n ≤ (c :: behind).length := staysIn_one behind problem n hone
    have hone' : one c (behind ++ '\n' :: rest) = .error (problem.atNewline, n) := by
      rw [one_newline, hone]
      rfl
    rw [scanFrom_of_error hdrop hone', htake, ← List.cons_append, List.take_append_of_le_length hn,
      List.drop_append_of_le_length hn]
    rw [errorAt_newline]
    rfl
  | case3 p text gap start c behind hrest kind n hone lexeme _ others ih =>
    obtain ⟨hdrop, htake⟩ := drop_take_newline text rest hrest
    have hn : n ≤ (c :: behind).length := by
      obtain ⟨taken, others, rfl, rfl, -⟩ := exists_of_one hone
      simp
    have hone' : one c (behind ++ '\n' :: rest) = .ok (kind, n) := by
      rw [one_newline, hone]
      rfl
    have hscan := scanFrom_of_one (p := p) hdrop hone'
    rw [htake, ← List.cons_append, List.take_append_of_le_length hn,
      List.drop_append_of_le_length hn] at hscan
    have hplace : (start.advance lexeme).advance ((c :: behind).drop n ++ ['\n']) =
        p.advance (text ++ ['\n']) := by
      rw [← Position.advance_append, ← List.append_assoc, List.take_append_drop, ← hrest,
        ← Position.advance_append, ← List.append_assoc, List.take_append_drop]
    rw [hplace] at ih
    dsimp only at hscan
    rw [hscan, ih]
    exact (Scan.andBelow_cons _ _ _).symm

/-! ### Sources -/

/-- The lines of a source are scanned as they are alone, if no carriage return is in the first of
them. -/
theorem scan_newline {s : String} (hs : '\r' ∉ s.toList) (t : String) :
    scan (s ++ "\n" ++ t) = (scan s).andBelow
      ((scan t).down (byteLength s.toList + 1) (s.toList.count '\n' + 1)) := by
  have hline : '\r' ∉ s.toList ++ ['\n'] := by simpa using hs
  have htext : (s ++ "\n" ++ t).toList = s.toList ++ ['\n'] ++ t.toList := by
    rw [String.toList_append, String.toList_append]
    rfl
  rw [scan, htext, unify_append_of_not_mem hline, unify_eq_self hline, List.append_assoc,
    List.singleton_append, scanFrom_newline, scan, unify_eq_self hs, scan,
    Position.advance_start_newline, scanFrom_down]

/-- Behind a source and a line end, a text is read as if it stood alone, as many lines further down.
-/
theorem scan_line_by_line {s : String} (hs : '\r' ∉ s.toList) (t : String) :
    (∀ tokens, lex s = .ok tokens → scan (s ++ "\n" ++ t) =
      ⟨tokens ++ (scan t).tokens.map (down (byteLength s.toList + 1) (s.toList.count '\n' + 1)),
        (scan t).error?.map
          (LexError.down (byteLength s.toList + 1) (s.toList.count '\n' + 1))⟩) ∧
    ∀ e, lex s = .error e → ∃ e', scan (s ++ "\n" ++ t) = ⟨(scan s).tokens, some e'⟩ ∧
      e'.span.start = e.span.start ∧ e'.problem = e.problem.atNewline ∧
      e'.problem.message =
        if e.problem.message = "Reached end of file when parsing literal" then
          "Reached end of line when parsing literal"
        else e.problem.message := by
  have hscan := scan_newline hs t
  unfold lex
  constructor
  · intro tokens htokens
    split at htokens
    · next heq =>
      cases htokens
      rw [hscan, heq]
      rfl
    · cases htokens
  · intro e he
    split at he
    · cases he
    · next heq =>
      cases he
      rw [heq] at hscan ⊢
      exact ⟨_, hscan, rfl, rfl, LexProblem.message_atNewline _⟩

/-- A line below an open comment, and a line below an open literal. -/
theorem line_below_comment_and_quote :
    '\r' ∉ "x ::é".toList ∧ '\r' ∉ "x\n\"é".toList ∧
    scan ("x ::é" ++ "\n" ++ "y") =
      ⟨[⟨.identifier "x", ⟨⟨0, 1, 1⟩, 1⟩⟩, ⟨.identifier "y", ⟨⟨7, 2, 1⟩, 1⟩⟩], none⟩ ∧
    ∃ e, scan ("x\n\"é" ++ "\n" ++ "y") = ⟨[⟨.identifier "x", ⟨⟨0, 1, 1⟩, 1⟩⟩], some e⟩ ∧
      e.span.start = ⟨5, 2, 3⟩ ∧
      e.problem.message = "Reached end of line when parsing literal" := by
  have hcomment : '\r' ∉ "x ::é".toList := by decide
  have hquote : '\r' ∉ "x\n\"é".toList := by decide
  refine ⟨hcomment, hquote, ?_, ?_⟩
  · have hx : lex "x ::é" = .ok [⟨.identifier "x", ⟨⟨0, 1, 1⟩, 1⟩⟩] := by decide +kernel
    have hy : (scan "y").tokens = [⟨.identifier "y", ⟨⟨0, 1, 1⟩, 1⟩⟩] := by decide +kernel
    have hend : (scan "y").error? = none := by decide +kernel
    rw [(scan_line_by_line hcomment "y").1 _ hx, hy, hend]
    rfl
  · have hx : (scan "x\n\"é").tokens = [⟨.identifier "x", ⟨⟨0, 1, 1⟩, 1⟩⟩] := by decide +kernel
    have he : lex "x\n\"é" = .error ⟨.endOfFile, ⟨⟨5, 2, 3⟩, 0⟩⟩ := by decide +kernel
    obtain ⟨e, hscan, hstart, -, hmessage⟩ := (scan_line_by_line hquote "y").2 _ he
    rw [hx] at hscan
    exact ⟨e, hscan, hstart, hmessage.trans (if_pos rfl)⟩

end Token

end TestDeclaration
