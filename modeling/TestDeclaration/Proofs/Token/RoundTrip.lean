import TestDeclaration.Proofs.Text.LineEnding
import TestDeclaration.Proofs.Token.Emission

/-!
# Tokens survive any layout

Tokens are laid out: each is spelled, with blanks and comments between two of them that begin with a
blank. The lexer takes the layout and the tokens apart again. So two spellings never become one,
and what the lexer can emit is what it can read.
-/

namespace TestDeclaration

open Number Text Token TokenKind
open LineEnding (unify_eq_self)

namespace Token

/-! ### Layout -/

/-- Blanks and comments, each comment with the end of its line. -/
inductive IsLayout : List Char → Prop where
  | nil : IsLayout []
  | blank {c : Char} {rest : List Char} : isBlank c → IsLayout rest → IsLayout (c :: rest)
  | comment (text : List Char) {rest : List Char} : '\n' ∉ text → '\r' ∉ text →
      IsLayout rest → IsLayout (':' :: ':' :: text ++ '\n' :: rest)

/-- Layout that can separate two tokens: it begins with a blank. -/
def IsGap (gap : List Char) : Prop := ∃ c rest, gap = c :: rest ∧ isBlank c ∧ IsLayout rest

private theorem IsGap.isLayout {gap : List Char} (h : IsGap gap) : IsLayout gap := by
  obtain ⟨c, rest, rfl, hc, hrest⟩ := h
  exact .blank hc hrest

/-- A comment lasts until the end of its line. -/
theorem layoutLength_comment {text : List Char} (ht : '\n' ∉ text) (rest : List Char) :
    layoutLength true (text ++ '\n' :: rest) = text.length + 1 + layoutLength false rest := by
  induction text with
  | nil =>
    rw [List.nil_append, layoutLength]
    simp
  | cons c text ih =>
    obtain ⟨hc, htext⟩ := List.ne_and_not_mem_of_not_mem_cons ht
    have hcont : (c != '\n') = true := bne_iff_ne.mpr hc.symm
    rw [List.cons_append, layoutLength, hcont, ih htext, List.length_cons]
    omega

/-- Layout is passed over. -/
theorem layoutLength_append {gap : List Char} (h : IsLayout gap) (rest : List Char) :
    layoutLength false (gap ++ rest) = gap.length + layoutLength false rest := by
  induction h with
  | nil => simp
  | blank hc _ ih =>
    rw [List.cons_append, layoutLength, if_pos hc, ih, List.length_cons]
    omega
  | comment text ht _ _ ih =>
    rw [List.append_assoc, List.cons_append, List.cons_append, layoutLength, if_neg (by decide),
      if_pos ⟨rfl, rfl⟩, layoutLength]
    have hcont : (':' != '\n') = true := by decide
    rw [hcont, List.cons_append, layoutLength_comment ht, ih]
    simp only [List.length_append, List.length_cons]
    omega

/-! ### Laying out -/

/-- The text of some tokens: each with its layout behind it, and layout in front of all. -/
def layOut (leading : List Char) : List (TokenKind × List Char) → List Char
  | [] => leading
  | (kind, gap) :: rest => leading ++ kind.spelling ++ layOut gap rest

/-- The layout behind each token separates it from the next one. Behind the last token there can be
none. -/
def Separates : List (TokenKind × List Char) → Prop
  | [] => True
  | [(_, gap)] => gap = [] ∨ IsGap gap
  | (_, gap) :: next :: rest => IsGap gap ∧ Separates (next :: rest)

/-- What stands behind a token is separated from it, and is laid out in turn. -/
theorem Separates.tail {kind : TokenKind} {gap : List Char} {rest : List (TokenKind × List Char)}
    (h : Separates ((kind, gap) :: rest)) :
    IsLayout gap ∧ Separated (layOut gap rest) ∧ Separates rest := by
  have hgap : ∀ {gap : List Char} {rest}, IsGap gap → Separated (layOut gap rest) := by
    rintro gap rest ⟨c, others, rfl, hc, -⟩ d hd
    cases rest <;> cases hd <;> exact hc
  cases rest with
  | nil =>
    rcases h with rfl | h
    · exact ⟨.nil, nofun, trivial⟩
    · exact ⟨h.isLayout, hgap h, trivial⟩
  | cons next rest => exact ⟨h.1.isLayout, hgap h.1, h.2⟩

/-! ### Taking apart -/

variable {p : Position} {text rest : List Char} {c : Char} {kind : TokenKind} {n : Nat}

/-- A text of layout alone has no tokens. -/
theorem scanFrom_of_layout (h : text.drop (layoutLength false text) = []) :
    scanFrom p text = ⟨[], none⟩ := by
  rw [scanFrom]
  split
  · rfl
  · next heq =>
    rw [h] at heq
    cases heq

/-- A token is read behind the layout, and then those behind it. -/
theorem scanFrom_of_one (h : text.drop (layoutLength false text) = c :: rest)
    (hone : one c rest = .ok (kind, n)) :
    let start := p.advance (text.take (layoutLength false text))
    let lexeme := (c :: rest).take n
    let others := scanFrom (start.advance lexeme) ((c :: rest).drop n)
    scanFrom p text = ⟨⟨kind, start, byteLength lexeme⟩ :: others.tokens, others.error?⟩ := by
  intro start lexeme others
  rw [scanFrom]
  split
  · next heq =>
    rw [h] at heq
    cases heq
  · next heq =>
    rw [h] at heq
    cases heq
    split
    · next hone' =>
      rw [hone] at hone'
      cases hone'
    · next hone' =>
      rw [hone] at hone'
      cases hone'
      rfl

/-- Tokens that are laid out are read one after the other. -/
theorem scanFrom_layOut {leading : List Char} {pieces : List (TokenKind × List Char)}
    (hl : IsLayout leading) (hk : ∀ piece ∈ pieces, piece.1.Spellable) (hs : Separates pieces) :
    ∃ tokens, scanFrom p (layOut leading pieces) = ⟨tokens, none⟩ ∧
      tokens.map Token.kind = pieces.map Prod.fst := by
  induction pieces generalizing leading p with
  | nil =>
    refine ⟨[], scanFrom_of_layout ?_, rfl⟩
    have hlength := layoutLength_append hl []
    rw [List.append_nil] at hlength
    rw [layOut, hlength, layoutLength, Nat.add_zero, List.drop_length]
  | cons piece rest ih =>
    obtain ⟨kind, gap⟩ := piece
    obtain ⟨hkind, hrest⟩ := List.forall_mem_cons.mp hk
    obtain ⟨hgap, hsep, hs⟩ := hs.tail
    obtain ⟨c, cs, hspell, hread⟩ := readsBack_of_spellable hkind
    obtain ⟨hzero, hone⟩ := hread _ hsep
    have hdrop : (layOut leading ((kind, gap) :: rest)).drop
        (layoutLength false (layOut leading ((kind, gap) :: rest))) =
        c :: (cs ++ layOut gap rest) := by
      rw [layOut, hspell, List.append_assoc, layoutLength_append hl, hzero, Nat.add_zero,
        List.drop_left, List.cons_append]
    have hscan := scanFrom_of_one (p := p) hdrop hone
    dsimp only at hscan
    rw [← List.cons_append, List.drop_left] at hscan
    obtain ⟨tokens, htokens, hkinds⟩ := ih hgap hrest hs
    rw [htokens] at hscan
    exact ⟨_, hscan, by rw [List.map_cons, List.map_cons, hkinds]⟩

/-! ### The whole source -/

private theorem IsLayout.return_not_mem {gap : List Char} (h : IsLayout gap) : '\r' ∉ gap := by
  induction h with
  | nil => exact List.not_mem_nil
  | blank hc _ ih =>
    refine List.not_mem_cons_of_ne_of_not_mem ?_ ih
    rintro rfl
    exact absurd hc (by decide)
  | comment _ _ ht _ ih =>
    intro hm
    rcases List.mem_append.mp hm with hm | hm
    · exact List.not_mem_cons_of_ne_of_not_mem (by decide)
        (List.not_mem_cons_of_ne_of_not_mem (by decide) ht) hm
    · exact List.not_mem_cons_of_ne_of_not_mem (by decide) ih hm

private theorem return_not_mem_layOut {leading : List Char} {pieces : List (TokenKind × List Char)}
    (hl : IsLayout leading) (hk : ∀ piece ∈ pieces, piece.1.Spellable) (hs : Separates pieces) :
    '\r' ∉ layOut leading pieces := by
  induction pieces generalizing leading with
  | nil => exact hl.return_not_mem
  | cons piece rest ih =>
    obtain ⟨kind, gap⟩ := piece
    obtain ⟨hkind, hrest⟩ := List.forall_mem_cons.mp hk
    obtain ⟨hgap, -, hs⟩ := hs.tail
    intro hm
    rcases List.mem_append.mp hm with hm | hm
    · rcases List.mem_append.mp hm with hm | hm
      · exact hl.return_not_mem hm
      · exact IsLineEnd.not_mem_spelling (.inl rfl) hkind hm
    · exact ih hgap hrest hs hm

/-- The tokens of a source are spellable, and spellable tokens are read back from every layout. -/
theorem spellable_of_scan_and_lex_layOut :
    (∀ source, ∀ t ∈ (scan source).tokens, t.kind.Spellable) ∧
    ∀ (leading : List Char) (pieces : List (TokenKind × List Char)), IsLayout leading →
      (∀ piece ∈ pieces, piece.1.Spellable) → Separates pieces →
      ∃ tokens, lex (String.ofList (layOut leading pieces)) = .ok tokens ∧
        tokens.map Token.kind = pieces.map Prod.fst := by
  constructor
  · intro source
    exact spellable_of_mem_scanFrom (LineEnding.return_not_mem_unify _)
  · intro leading pieces hl hk hs
    obtain ⟨tokens, hscan, hkinds⟩ := scanFrom_layOut (p := Position.start) hl hk hs
    refine ⟨tokens, ?_, hkinds⟩
    have hunify := unify_eq_self (return_not_mem_layOut hl hk hs)
    rw [lex, scan, String.toList_ofList, hunify, hscan]

/-- Two colons with a comment between them stay two colons. -/
theorem colons_survive_layOut :
    let leading := "\t:: first\n".toList
    let pieces : List (TokenKind × List Char) :=
      [(.symbol .colon, " :: second\n".toList), (.symbol .colon, []) ]
    IsLayout leading ∧ Separates pieces ∧
      ∃ tokens, lex (String.ofList (layOut leading pieces)) = .ok tokens ∧
        tokens.map Token.kind = [.symbol .colon, .symbol .colon] := by
  intro leading pieces
  have hleading : IsLayout leading :=
    .blank rfl (.comment " first".toList (by decide) (by decide) .nil)
  have hpieces : Separates pieces := by
    refine ⟨⟨' ', _, rfl, rfl, ?_⟩, .inl rfl⟩
    exact .comment " second".toList (by decide) (by decide) .nil
  refine ⟨hleading, hpieces, spellable_of_scan_and_lex_layOut.2 leading pieces hleading ?_ hpieces⟩
  simp [pieces, Spellable]

end Token

end TestDeclaration
