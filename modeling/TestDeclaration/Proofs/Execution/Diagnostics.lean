import TestDeclaration.Proofs.Plan.Simulation
import TestDeclaration.Proofs.Text.Position
import TestDeclaration.Proofs.Token.LineEnd
import TestDeclaration.Run

/-!
# Where errors are reported

A position is in a text if its offset, its line and its column belong to one and the same place of
the text. Errors of the lexer and errors at a token have such positions. An error behind the last
token has the right offset and line, but its column is moved by the bytes of that token: it is too
far to the right by one for each byte beyond the first of a character.
-/

namespace TestDeclaration

open Text

/-! ### Positions in a text -/

namespace Text

/-- A position in a text is the one behind some start of it. -/
def Position.IsIn (p : Position) (text : List Char) : Prop :=
  ∃ front, front <+: text ∧ p = .behind front

/-- The position some columns further to the right. -/
def Position.right (p : Position) (columns : Nat) : Position :=
  { p with column := p.column + columns }

/-- A span is that of a part of a text, on one line. -/
def Span.Covers (s : Span) (lexeme text : List Char) : Prop :=
  ∃ front back, text = front ++ lexeme ++ back ∧ '\n' ∉ lexeme ∧
    s = ⟨.behind front, byteLength lexeme⟩

variable {text a b lexeme : List Char}

/-- Each offset of a text has one line and one column. -/
theorem Position.IsIn.eq_of_offset_eq {p q : Position} (hp : p.IsIn text) (hq : q.IsIn text)
    (h : p.offset = q.offset) : p = q := by
  obtain ⟨a, ha, rfl⟩ := hp
  obtain ⟨b, hb, rfl⟩ := hq
  rw [eq_of_byteLength_eq ha hb h]

/-- On one line the column grows by the characters passed over. -/
theorem Position.behind_append (front : List Char) (h : '\n' ∉ lexeme) :
    behind (front ++ lexeme) = ⟨(behind front).offset + byteLength lexeme, (behind front).line,
      (behind front).column + lexeme.length⟩ := by
  induction lexeme using List.reverseRecOn with
  | nil => rw [List.append_nil]; rfl
  | append_singleton lexeme c ih =>
    simp only [List.mem_append, List.mem_singleton, not_or] at h
    rw [← List.append_assoc, behind_concat, ih h.1, next, if_neg (Ne.symm h.2),
      byteLength_append, List.length_append]
    simp [Nat.add_assoc]

/-- No text has fewer bytes than characters, and a text has as many if each character has one. -/
theorem byteLength_eq_length_iff (text : List Char) :
    text.length ≤ byteLength text ∧
      (byteLength text = text.length ↔ ∀ c ∈ text, c.utf8Size = 1) := by
  induction text with
  | nil => simp
  | cons c text ih =>
    obtain ⟨hle, hiff⟩ := ih
    have hpos := c.utf8Size_pos
    rw [byteLength_cons, List.length_cons, List.forall_mem_cons, ← hiff]
    omega

namespace Span.Covers

variable {s : Span}

private theorem isIn (h : s.Covers lexeme text) : s.start.IsIn text := by
  obtain ⟨front, back, rfl, -, rfl⟩ := h
  exact ⟨front, ⟨lexeme ++ back, (List.append_assoc ..).symm⟩, rfl⟩

/-- The span behind has the offset and the line of the place behind. Its column counts the bytes of
the part as if they were characters, so it is right if they are. -/
theorem behind (h : s.Covers lexeme text) :
    ∃ front back, text = front ++ lexeme ++ back ∧ s = ⟨.behind front, byteLength lexeme⟩ ∧
      s.behind = ⟨(Position.behind (front ++ lexeme)).right
        (byteLength lexeme - lexeme.length), 0⟩ ∧
      (s.behind.start.IsIn text ↔ ∀ c ∈ lexeme, c.utf8Size = 1) := by
  obtain ⟨front, back, rfl, hline, rfl⟩ := h
  obtain ⟨hle, hiff⟩ := byteLength_eq_length_iff lexeme
  have hplace := Position.behind_append front hline
  refine ⟨front, back, rfl, rfl, ?_, ?_⟩
  · simp only [hplace, Span.behind, Position.right, Nat.add_assoc, Nat.add_sub_cancel' hle]
  · have hright : (Position.behind (front ++ lexeme)).IsIn (front ++ lexeme ++ back) :=
      ⟨_, List.prefix_append _ _, rfl⟩
    rw [← hiff]
    constructor
    · intro hin
      have heq := hin.eq_of_offset_eq hright (by rw [hplace]; rfl)
      rw [hplace] at heq
      have hcolumn := congrArg Position.column heq
      simpa [Span.behind] using hcolumn
    · intro hsize
      have heq : (Span.behind ⟨.behind front, byteLength lexeme⟩).start =
          Position.behind (front ++ lexeme) := by
        rw [hplace, hsize]
        simp [Span.behind]
      rw [heq]
      exact hright

end Span.Covers

end Text

/-! ### Lexing -/

namespace Token

variable {c : Char} {rest : List Char} {kind : TokenKind} {n : Nat}

/-- A token does not start with a newline. -/
theorem ne_newline_of_one (h : one c rest = .ok (kind, n)) : c ≠ '\n' := by
  rintro rfl
  have hpair : rest.head?.bind (Symbol.ofPair? '\n') = none := by
    cases rest <;> rfl
  have hone : one '\n' rest = .error (.unexpectedCharacter '\n', 0) := by
    unfold one
    rw [if_neg (by decide), if_neg (by decide), if_neg (by decide), if_neg (by decide),
      if_neg (by simp), symbol, hpair]
    rfl
  rw [hone] at h
  cases h

/-- A token lies on one line. -/
theorem newline_not_mem_of_one (h : one c rest = .ok (kind, n)) : '\n' ∉ (c :: rest).take n := by
  obtain ⟨taken, behind, rfl, rfl, hread⟩ := exists_of_one h
  rw [← List.cons_append, List.take_left]
  intro hmem
  rcases List.mem_cons.mp hmem with heq | hmem
  · exact ne_newline_of_one h heq.symm
  · obtain ⟨line, others, rfl, -⟩ := List.eq_append_cons_of_mem hmem
    rw [one_newline] at hread
    -- What is read in front of the newline takes no more than that.
    cases hline : one c line with
    | error e => rw [hline] at hread; cases hread
    | ok r =>
      rw [hline] at hread
      cases hread
      obtain ⟨taken, behind, rfl, hlength, -⟩ := exists_of_one hline
      simp only [List.length_cons, List.length_append] at hlength
      omega

/-- Tokens cover parts of the text, and the error is in it. -/
theorem covers_scanFrom (p : Position) (text passed : List Char) (hp : p = .behind passed) :
    (∀ t ∈ (scanFrom p text).tokens, ∃ lexeme, t.span.Covers lexeme (passed ++ text)) ∧
      ∀ e ∈ (scanFrom p text).error?, e.span.start.IsIn (passed ++ text) := by
  fun_induction scanFrom p text generalizing passed with
  | case1 => exact ⟨List.forall_mem_nil _, fun e he ↦ absurd he (Option.not_mem_none e)⟩
  | case2 p text gap start c rest hrest problem n hone =>
    refine ⟨List.forall_mem_nil _, ?_⟩
    rintro e ⟨rfl⟩
    subst hp
    refine ⟨passed ++ text.take (gap + n), ?_, ?_⟩
    · exact List.prefix_append_right_inj passed |>.mpr (List.take_prefix _ _)
    · rw [List.take_add, hrest, ← Position.advance_behind]
      exact (Position.advance_append _ _ _).symm
  | case3 p text gap start c rest hrest kind n hone lexeme _ others ih =>
    subst hp
    have htext : text = text.take gap ++ lexeme ++ (c :: rest).drop n := by
      rw [List.append_assoc, List.take_append_drop, ← hrest, List.take_append_drop]
    have hstart : start = .behind (passed ++ text.take gap) := Position.advance_behind _ _
    have hpassed : passed ++ text.take gap ++ lexeme ++ (c :: rest).drop n = passed ++ text := by
      rw [List.append_assoc, List.append_assoc, ← List.append_assoc (text.take gap), ← htext]
    obtain ⟨htokens, herror⟩ := ih (passed ++ text.take gap ++ lexeme)
      (by rw [hstart, Position.advance_behind])
    rw [hpassed] at htokens herror
    refine ⟨List.forall_mem_cons.mpr ⟨⟨lexeme, ?_⟩, htokens⟩, herror⟩
    exact ⟨_, _, hpassed.symm, newline_not_mem_of_one hone, by rw [hstart]⟩

variable {source : String} {tokens : List Token}

private theorem isIn_of_lex_eq_error {e : LexError} (h : lex source = .error e) :
    e.span.start.IsIn (LineEnding.unify source.toList) := by
  have herror := (covers_scanFrom .start (LineEnding.unify source.toList) [] rfl).2
  unfold lex scan at h
  split at h
  · cases h
  · next heq =>
    cases h
    rw [heq] at herror
    exact herror e rfl

private theorem covers_of_lex_eq_ok (h : lex source = .ok tokens) :
    ∀ t ∈ tokens, ∃ lexeme, t.span.Covers lexeme (LineEnding.unify source.toList) := by
  have htokens := (covers_scanFrom .start (LineEnding.unify source.toList) [] rfl).1
  unfold lex scan at h
  split at h
  · next heq =>
    cases h
    rw [heq] at htokens
    exact htokens
  · cases h

end Token

/-! ### Reading -/

namespace Plan

private theorem SameSite.left {tokens tokens' : List Token} {s s' : Span}
    (h : SameSite tokens tokens' s s') : (∃ t ∈ tokens, s = t.span) ∨ s = endSpan tokens := by
  cases h with
  | token ht => exact .inl ⟨_, List.mem_of_getElem? ht, rfl⟩
  | behind => exact .inr rfl

/-- An error is at a token or behind all of them. -/
theorem span_of_read_eq_error {loader : Loader} {library : Library} {heap : Heap}
    {tokens : List Token} {e : PlanError} {d : Draft}
    (h : read loader tokens (.start library heap) = (.error e, d)) :
    (∃ t ∈ tokens, e.span = t.span) ∨ e.span = endSpan tokens := by
  have hkinds : tokens.map Token.kind = tokens.map Token.kind := rfl
  obtain ⟨-, hends⟩ := read_same hkinds loader library heap
  rw [h] at hends
  cases hends with
  | error he => exact he.2.left

end Plan

namespace Run

/-- A source without results has an error of the lexer, or its tokens have one. -/
theorem error_of_results {loader : Loader} {library : Library} {source : String} {e : RunError}
    (h : results loader library source = .error e) :
    (∃ le, e = .lex le ∧ Token.lex source = .error le) ∨
      ∃ tokens pe d, e = .plan pe ∧ Token.lex source = .ok tokens ∧
        Plan.read loader tokens (.start library .empty) = (.error pe, d) := by
  unfold results at h
  split at h
  · next le hlex =>
    cases h
    exact .inl ⟨le, rfl, hlex⟩
  · next tokens hlex =>
    unfold resultsOfTokens at h
    rcases hread : Plan.read loader tokens (.start library .empty) with ⟨pe | plan, d⟩
    · rw [hread] at h
      cases h
      exact .inr ⟨tokens, pe, d, rfl, hlex, hread⟩
    · rw [hread] at h
      cases h

/-- Results are those of a plan that was read. -/
theorem ok_of_results {loader : Loader} {library : Library} {source : String} {r : Results}
    (h : results loader library source = .ok r) :
    ∃ tokens plan d, Token.lex source = .ok tokens ∧
      Plan.read loader tokens (.start library .empty) = (.ok plan, d) ∧
      (r.groups, r.heap) = plan.run d.heap := by
  unfold results at h
  split at h
  · cases h
  · next tokens hlex =>
    unfold resultsOfTokens at h
    rcases hread : Plan.read loader tokens (.start library .empty) with ⟨pe | plan, d⟩
    · rw [hread] at h
      cases h
    · rw [hread] at h
      cases h
      exact ⟨tokens, plan, d, hlex, hread, rfl⟩

/-- Errors are at positions in the unified text, but for the column of an error behind the last
token: it is too large by the bytes of that token beyond its characters. -/
theorem places_of_error (loader : Loader) (library : Library) (source : String) :
    let text := LineEnding.unify source.toList
    (∀ e, Run.results loader library source = .error (.lex e) → e.span.start.IsIn text) ∧
    ∀ e, Run.results loader library source = .error (.plan e) →
      ∃ tokens, Token.lex source = .ok tokens ∧
        ((∃ t ∈ tokens, e.span = t.span ∧ t.span.start.IsIn text) ∨
          ∃ last ∈ tokens.getLast?, ∃ front lexeme back, text = front ++ lexeme ++ back ∧
            last.span = ⟨.behind front, byteLength lexeme⟩ ∧
            e.span = ⟨(Position.behind (front ++ lexeme)).right
              (byteLength lexeme - lexeme.length), 0⟩ ∧
            (e.span.start.IsIn text ↔ ∀ c ∈ lexeme, c.utf8Size = 1)) := by
  intro text
  constructor
  · intro e h
    obtain ⟨_, ⟨⟩, hlex⟩ | ⟨_, _, _, h, -⟩ := error_of_results h
    · exact Token.isIn_of_lex_eq_error hlex
    · cases h
  · intro e h
    obtain ⟨_, h, -⟩ | ⟨tokens, _, d, ⟨⟩, hlex, hread⟩ := error_of_results h
    · cases h
    have hcovers := Token.covers_of_lex_eq_ok hlex
    refine ⟨tokens, hlex, ?_⟩
    rcases Plan.span_of_read_eq_error hread with ⟨t, ht, hspan⟩ | hspan
    · obtain ⟨lexeme, hlexeme⟩ := hcovers t ht
      exact .inl ⟨t, ht, hspan, hlexeme.isIn⟩
    · -- Without any token nothing is unfinished, so there is a last one.
      cases hlast : tokens.getLast? with
      | none =>
        rw [List.getLast?_eq_none_iff.mp hlast] at hread
        cases hread
      | some last =>
        obtain ⟨lexeme, hlexeme⟩ := hcovers last (List.mem_of_getLast? hlast)
        rw [Plan.endSpan, hlast] at hspan
        rw [hspan]
        obtain ⟨front, back, h⟩ := hlexeme.behind
        exact .inr ⟨last, rfl, front, lexeme, back, h⟩

/-- A source that ends behind an activator. -/
def withoutColon (text : String) : String := "do string -> Length: on \"" ++ text ++ "\""

/-- The missing colon behind `"e"` is reported at the end of the source. -/
theorem places_of_error_ascii :
    Run.results .standard .initial (withoutColon "e") =
        .error (.plan ⟨.grammar .colon, ⟨⟨27, 1, 28⟩, 0⟩⟩) ∧
      Position.IsIn ⟨27, 1, 28⟩ (LineEnding.unify (withoutColon "e").toList) := by
  have hlex : Token.lex (withoutColon "e") =
      .ok [⟨.keyword .perform, ⟨⟨0, 1, 1⟩, 2⟩⟩, ⟨.identifier "string", ⟨⟨3, 1, 4⟩, 6⟩⟩,
        ⟨.symbol .arrow, ⟨⟨10, 1, 11⟩, 2⟩⟩, ⟨.identifier "Length", ⟨⟨13, 1, 14⟩, 6⟩⟩,
        ⟨.symbol .colon, ⟨⟨19, 1, 20⟩, 1⟩⟩, ⟨.keyword .onTarget, ⟨⟨21, 1, 22⟩, 2⟩⟩,
        ⟨.literal (.string "e"), ⟨⟨24, 1, 25⟩, 3⟩⟩] := by
    decide +kernel
  have herror : Run.results .standard .initial (withoutColon "e") =
      .error (.plan ⟨.grammar .colon, ⟨⟨27, 1, 28⟩, 0⟩⟩) := by
    rw [results, hlex]
    rfl
  have hascii : (LineEnding.unify (withoutColon "e").toList).all (fun c ↦ c.utf8Size == 1) := by
    decide +kernel
  simp only [List.all_eq_true, beq_iff_eq] at hascii
  refine ⟨herror, ?_⟩
  obtain ⟨tokens, -, hplace⟩ := (places_of_error _ _ _).2 _ herror
  rcases hplace with ⟨t, -, heq, hin⟩ | ⟨_, -, front, lexeme, back, htext, -, -, hin⟩
  · rw [← heq] at hin
    exact hin
  · refine hin.mpr fun c hc ↦ hascii c ?_
    rw [htext]
    exact List.mem_append_left _ (List.mem_append_right _ hc)

/-- The missing colon behind `"é"` is reported one column to the right of the end of the source. -/
theorem places_of_error_accent :
    Run.results .standard .initial (withoutColon "é") =
        .error (.plan ⟨.grammar .colon, ⟨⟨28, 1, 29⟩, 0⟩⟩) ∧
      Position.behind (LineEnding.unify (withoutColon "é").toList) = ⟨28, 1, 28⟩ ∧
      ¬ Position.IsIn ⟨28, 1, 29⟩ (LineEnding.unify (withoutColon "é").toList) := by
  have hlex : Token.lex (withoutColon "é") =
      .ok [⟨.keyword .perform, ⟨⟨0, 1, 1⟩, 2⟩⟩, ⟨.identifier "string", ⟨⟨3, 1, 4⟩, 6⟩⟩,
        ⟨.symbol .arrow, ⟨⟨10, 1, 11⟩, 2⟩⟩, ⟨.identifier "Length", ⟨⟨13, 1, 14⟩, 6⟩⟩,
        ⟨.symbol .colon, ⟨⟨19, 1, 20⟩, 1⟩⟩, ⟨.keyword .onTarget, ⟨⟨21, 1, 22⟩, 2⟩⟩,
        ⟨.literal (.string "é"), ⟨⟨24, 1, 25⟩, 4⟩⟩] := by
    decide +kernel
  have hend : Position.behind (LineEnding.unify (withoutColon "é").toList) = ⟨28, 1, 28⟩ := by
    decide +kernel
  refine ⟨?_, hend, fun hin ↦ ?_⟩
  · rw [results, hlex]
    rfl
  · have hright : Position.IsIn ⟨28, 1, 28⟩ (LineEnding.unify (withoutColon "é").toList) :=
      ⟨_, List.prefix_refl _, hend.symm⟩
    cases hin.eq_of_offset_eq hright rfl

end Run

end TestDeclaration
