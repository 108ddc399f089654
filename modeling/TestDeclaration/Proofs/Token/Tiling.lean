import TestDeclaration.Proofs.Text.Position
import TestDeclaration.Proofs.Token.Locality
import TestDeclaration.Proofs.Token.RoundTrip
import TestDeclaration.Proofs.Token.Stream

/-!
# Tokens tile the source

From left to right a source is layout, a token, layout, a token and so on, up to its end or to the
first place where no token can be read. All positions are those of these pieces, and each token can
be read from its piece alone.
-/

namespace TestDeclaration

open Text

/-- The offset behind a span. -/
def Text.Span.stop (s : Span) : Nat := s.start.offset + s.length

namespace Token

/-! ### Layout -/

/-- Layout up to the end of a text, where the last comment can lack the end of its line. -/
def IsFinalLayout (text : List Char) : Prop :=
  IsLayout text ∨
    ∃ gap comment, text = gap ++ ':' :: ':' :: comment ∧ IsLayout gap ∧ '\n' ∉ comment

variable {text rest : List Char} {c : Char}

/-- A comment without the end of its line lasts until the end of the text. -/
theorem layoutLength_openComment (ht : '\n' ∉ text) : layoutLength true text = text.length := by
  induction text with
  | nil => rfl
  | cons c text ih =>
    obtain ⟨hc, htext⟩ := List.ne_and_not_mem_of_not_mem_cons ht
    have hcont : (c != '\n') = true := bne_iff_ne.mpr hc.symm
    rw [layoutLength, hcont, ih htext, List.length_cons, Nat.add_comm]

/-- A text is layout and a rest that starts without it, unless it ends in a comment that lacks the
end of its line. -/
def SplitsLayout (text : List Char) : Prop :=
  (∃ gap rest, text = gap ++ rest ∧ IsLayout gap ∧ layoutLength false rest = 0) ∨
    ∃ gap comment, text = gap ++ ':' :: ':' :: comment ∧ IsLayout gap ∧ '\n' ∉ comment

private theorem SplitsLayout.append (start : List Char)
    (hstart : ∀ gap, IsLayout gap → IsLayout (start ++ gap)) (h : SplitsLayout text) :
    SplitsLayout (start ++ text) := by
  obtain ⟨gap, rest, rfl, hgap, hrest⟩ | ⟨gap, comment, rfl, hgap, hcomment⟩ := h
  · exact .inl ⟨start ++ gap, rest, (List.append_assoc ..).symm, hstart gap hgap, hrest⟩
  · exact .inr ⟨start ++ gap, comment, (List.append_assoc ..).symm, hstart gap hgap, hcomment⟩

private theorem splitsLayout (ht : '\r' ∉ text) : SplitsLayout text := by
  induction hlength : text.length using Nat.strongRecOn generalizing text with
  | ind n ih =>
    subst hlength
    cases text with
    | nil => exact .inl ⟨[], [], rfl, .nil, rfl⟩
    | cons c rest =>
      have hrest := (List.ne_and_not_mem_of_not_mem_cons ht).2
      by_cases hblank : isBlank c
      · exact (ih rest.length (Nat.lt_succ_self _) hrest rfl).append [c]
          fun gap ↦ .blank hblank
      by_cases hcolons : c = ':' ∧ rest.head? = some ':'
      · obtain ⟨rfl, hhead⟩ := hcolons
        obtain ⟨body, rfl⟩ := List.head?_eq_some_iff.mp hhead
        by_cases hnewline : '\n' ∈ body
        · obtain ⟨comment, others, rfl, hcomment⟩ := List.eq_append_cons_of_mem hnewline
          simp only [List.mem_cons, List.mem_append, not_or] at hrest
          have hothers : SplitsLayout others := by
            refine ih others.length ?_ hrest.2.2.2 rfl
            simp only [List.length_cons, List.length_append]
            omega
          have happend := hothers.append (':' :: ':' :: comment ++ ['\n']) fun gap hgap ↦ by
            rw [List.append_assoc]
            exact .comment comment hcomment hrest.2.1 hgap
          rwa [List.append_assoc] at happend
        · exact .inr ⟨[], body, rfl, .nil, hnewline⟩
      · exact .inl ⟨[], c :: rest, rfl, .nil, by rw [layoutLength, if_neg hblank, if_neg hcolons]⟩

private theorem isFinalLayout_of_drop (ht : '\r' ∉ text)
    (hd : text.drop (layoutLength false text) = []) : IsFinalLayout text := by
  obtain ⟨gap, rest, rfl, hgap, hrest⟩ | hcomment := splitsLayout ht
  · rw [layoutLength_append hgap, hrest, Nat.add_zero, List.drop_left] at hd
    rw [hd, List.append_nil]
    exact .inl hgap
  · exact .inr hcomment

private theorem isLayout_of_drop (ht : '\r' ∉ text)
    (hd : text.drop (layoutLength false text) = c :: rest) :
    IsLayout (text.take (layoutLength false text)) ∧ layoutLength false (c :: rest) = 0 := by
  obtain ⟨gap, others, rfl, hgap, hothers⟩ | ⟨gap, comment, rfl, hgap, hcomment⟩ :=
    splitsLayout ht
  · rw [layoutLength_append hgap, hothers, Nat.add_zero] at hd ⊢
    rw [List.drop_left] at hd
    rw [List.take_left, ← hd]
    exact ⟨hgap, hothers⟩
  · have hopen : '\n' ∉ ':' :: comment := List.not_mem_cons_of_ne_of_not_mem (by decide) hcomment
    rw [layoutLength_append hgap, layoutLength, if_neg (by decide), if_pos ⟨rfl, rfl⟩,
      layoutLength_openComment hopen, List.drop_eq_nil_of_le] at hd
    · cases hd
    · simp only [List.length_append, List.length_cons]
      omega

/-! ### Tiles -/

/-- A text that is read as one token of some kind, and nothing else. -/
def IsLexeme (kind : TokenKind) (lexeme : List Char) : Prop :=
  lexeme ≠ [] ∧
    lex (String.ofList lexeme) = .ok [⟨kind, Position.start, byteLength lexeme⟩]

/-- A scan cuts a text into layout and tokens, where some text is passed before. At the end there is
only layout. At an error there is layout, a text that was begun to be read, and the character of the
error, unless the text ends there. -/
inductive Tiles : (passed text : List Char) → Scan → Prop where
  | done {passed text : List Char} : IsFinalLayout text → Tiles passed text ⟨[], none⟩
  | stuck {passed text gap begun behind : List Char} {problem : LexProblem} :
      text = gap ++ begun ++ behind → IsLayout gap →
      Tiles passed text
        ⟨[], some ⟨problem, .behind (passed ++ gap ++ begun), byteLength (behind.take 1)⟩⟩
  | token {passed text gap lexeme rest : List Char} {kind : TokenKind} {others : Scan} :
      text = gap ++ lexeme ++ rest → IsLayout gap → IsLexeme kind lexeme →
      Tiles (passed ++ gap ++ lexeme) rest others →
      Tiles passed text
        ⟨⟨kind, .behind (passed ++ gap), byteLength lexeme⟩ :: others.tokens, others.error?⟩

private theorem layoutLength_eq_zero_iff : layoutLength false (c :: rest) = 0 ↔
    ¬ isBlank c ∧ ¬ (c = ':' ∧ rest.head? = some ':') := by
  rw [layoutLength]
  split
  · next hblank => simp [hblank]
  · next hblank =>
    split
    · next hcolons => simp [hcolons]
    · next hcolons => simp [hblank, hcolons]

/-- What does not start with layout does so neither if less text follows. -/
theorem layoutLength_take {taken : List Char} (h : layoutLength false (c :: (taken ++ rest)) = 0) :
    layoutLength false (c :: taken) = 0 := by
  rw [layoutLength_eq_zero_iff] at h ⊢
  refine ⟨h.1, fun ⟨hc, hhead⟩ ↦ h.2 ⟨hc, ?_⟩⟩
  cases taken with
  | nil => cases hhead
  | cons d taken => exact hhead

private theorem isLexeme_of_one {kind : TokenKind} {taken : List Char} (ht : '\r' ∉ c :: taken)
    (hlayout : layoutLength false (c :: taken) = 0)
    (hone : one c taken = .ok (kind, (c :: taken).length)) : IsLexeme kind (c :: taken) := by
  refine ⟨List.cons_ne_nil _ _, ?_⟩
  have hdrop : (c :: taken).drop (layoutLength false (c :: taken)) = c :: taken := by
    rw [hlayout, List.drop_zero]
  have hscan := scanFrom_of_one (p := Position.start) hdrop hone
  simp only [hlayout, List.take_zero, List.take_length, List.drop_length,
    Position.advance_nil] at hscan
  have hend : ∀ q, scanFrom q [] = ⟨[], none⟩ := fun _ ↦ scanFrom_of_layout rfl
  rw [hend] at hscan
  rw [lex, scan, String.toList_ofList, LineEnding.unify_eq_self ht, hscan]

/-- Scanning from the position behind what was passed cuts the text into tiles. -/
theorem tiles_scanFrom (p : Position) (text passed : List Char) (hp : p = .behind passed)
    (ht : '\r' ∉ text) : Tiles passed text (scanFrom p text) := by
  fun_induction scanFrom p text generalizing passed with
  | case1 p text gap hrest => exact .done (isFinalLayout_of_drop ht hrest)
  | case2 p text gap start c rest hrest problem n hone =>
    subst hp
    obtain ⟨hgap, -⟩ := isLayout_of_drop ht hrest
    have htext : text = text.take gap ++ (c :: rest).take n ++ (c :: rest).drop n := by
      rw [List.append_assoc, List.take_append_drop, ← hrest, List.take_append_drop]
    have hplace : (start.advance ((c :: rest).take n)) =
        .behind (passed ++ text.take gap ++ (c :: rest).take n) := by
      rw [← Position.advance_behind, ← Position.advance_behind]
    rw [errorAt, hplace]
    exact .stuck htext hgap
  | case3 p text gap start c rest hrest kind n hone lexeme _ others ih =>
    subst hp
    obtain ⟨hgap, hlayout⟩ := isLayout_of_drop ht hrest
    have hsuffix : '\r' ∉ c :: rest := fun hm ↦ ht (List.mem_of_mem_drop (hrest ▸ hm))
    obtain ⟨taken, behind, rfl, rfl, hread⟩ := exists_of_one hone
    have hlexeme : lexeme = c :: taken := List.take_left
    have hbehind : (c :: (taken ++ behind)).drop (c :: taken).length = behind := List.drop_left
    have htext : text = text.take gap ++ (c :: taken) ++ behind := by
      rw [List.append_assoc, List.cons_append, ← hrest, List.take_append_drop]
    have hstart : start = .behind (passed ++ text.take gap) := Position.advance_behind _ _
    have hreturn : '\r' ∉ (c :: taken) ++ behind := hsuffix
    simp only [List.mem_append, not_or] at hreturn
    have hothers : Tiles (passed ++ text.take gap ++ (c :: taken)) behind others := by
      rw [← hbehind]
      refine ih _ ?_ ?_
      · rw [hstart, hlexeme, Position.advance_behind]
      · rw [hbehind]
        exact hreturn.2
    rw [hstart, hlexeme]
    exact .token htext hgap (isLexeme_of_one hreturn.1 (layoutLength_take hlayout) hread) hothers

namespace Tiles

variable {passed : List Char} {s : Scan}

/-- Tokens are not empty and lie behind what was passed. -/
theorem le_start (h : Tiles passed text s) :
    ∀ t ∈ s.tokens, byteLength passed ≤ t.span.start.offset ∧ 0 < t.span.length := by
  induction h with
  | done | stuck => exact List.forall_mem_nil _
  | @token passed _ gap lexeme _ _ _ _ _ hlexeme _ ih =>
    refine List.forall_mem_cons.mpr ⟨⟨?_, byteLength_pos hlexeme.1⟩, fun t ht ↦ ?_⟩
    · rw [Position.behind, byteLength_append]
      exact Nat.le_add_right _ _
    · obtain ⟨hle, hpos⟩ := ih t ht
      rw [byteLength_append, byteLength_append] at hle
      exact ⟨by omega, hpos⟩

/-- No token starts before the one in front of it stops. -/
theorem pairwise (h : Tiles passed text s) :
    s.tokens.Pairwise fun t u ↦ t.span.stop ≤ u.span.start.offset := by
  induction h with
  | done | stuck => exact .nil
  | token _ _ _ hothers ih =>
    refine .cons (fun u hu ↦ ?_) ih
    have hle := (hothers.le_start u hu).1
    rwa [byteLength_append] at hle

/-- An error lies behind what was passed, and behind all tokens. -/
theorem le_error (h : Tiles passed text s) : ∀ e ∈ s.error?,
    byteLength passed ≤ e.span.start.offset ∧
      ∀ t ∈ s.tokens, t.span.stop ≤ e.span.start.offset := by
  induction h with
  | done => exact nofun
  | stuck =>
    rintro e ⟨rfl⟩
    refine ⟨?_, List.forall_mem_nil _⟩
    rw [Position.behind, byteLength_append, byteLength_append, Nat.add_assoc]
    exact Nat.le_add_right _ _
  | token _ _ _ _ ih =>
    intro e he
    obtain ⟨hle, hall⟩ := ih e he
    rw [byteLength_append] at hle
    refine ⟨?_, List.forall_mem_cons.mpr ⟨hle, hall⟩⟩
    rw [byteLength_append] at hle
    omega

end Tiles

/-- Tokens and layout tile the unified source up to its end or its error, and each token can be read
alone. -/
theorem scan_tiles_source (source : String) :
    Tiles [] (LineEnding.unify source.toList) (scan source) ∧
    (∀ t ∈ (scan source).tokens, 0 < t.span.length) ∧
    ((scan source).tokens.Pairwise fun t u ↦ t.span.stop ≤ u.span.start.offset) ∧
    (∀ e ∈ (scan source).error?, ∀ t ∈ (scan source).tokens,
      t.span.stop ≤ e.span.start.offset) ∧
    (∀ n, (Stream.ofSource source).answer? n = (scan source).answers[n]?) ∧
    ∀ m n, m < n → Stream.Ends ((Stream.ofSource source).answer? m) →
      (Stream.ofSource source).answer? n = none := by
  have htiles : Tiles [] (LineEnding.unify source.toList) (scan source) :=
    tiles_scanFrom _ _ [] rfl (LineEnding.return_not_mem_unify _)
  refine ⟨htiles, fun t ht ↦ (htiles.le_start t ht).2, htiles.pairwise,
    fun e he ↦ (htiles.le_error e he).2, Stream.answer?_ofSource source, fun m n hmn ↦ ?_⟩
  exact Stream.answer?_eq_none hmn

end Token

end TestDeclaration
