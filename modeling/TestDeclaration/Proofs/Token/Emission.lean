import Mathlib.Data.List.TakeWhile
import TestDeclaration.Proofs.Token.Spelling

/-!
# What the lexer emits

Every token that is read from a text without carriage returns is spellable, and spellings hold
neither carriage returns nor newlines. There is one lemma for each reader of the lexer.
-/

namespace TestDeclaration

open Number Token TokenKind

namespace Token

namespace Reading

variable {α β : Type} {r : Reading α} {n : Nat}

/-- A reading that starts later is longer by what stands before it. -/
theorem after_eq_ok_iff {k : Nat} {a : α} :
    r.after k = .ok (a, n) ↔ ∃ i, r = .ok (a, i) ∧ n = k + i := by
  rcases r with e | ⟨b, i⟩
  · simp [after]
  · simp only [after, Except.ok.injEq, Prod.mk.injEq]
    constructor
    · rintro ⟨rfl, rfl⟩
      exact ⟨i, ⟨rfl, rfl⟩, rfl⟩
    · rintro ⟨_, ⟨rfl, rfl⟩, rfl⟩
      exact ⟨rfl, rfl⟩

private theorem exists_of_after {k : Nat} {a : α} (h : r.after k = .ok (a, n)) :
    ∃ i, r = .ok (a, i) := by
  obtain ⟨i, h, -⟩ := after_eq_ok_iff.mp h
  exact ⟨i, h⟩

/-- A reading with its result mapped is as long as the reading. -/
theorem exists_of_map {f : α → β} {b : β} (h : r.map f = .ok (b, n)) :
    ∃ a, r = .ok (a, n) ∧ f a = b := by
  rcases r with _ | ⟨a, i⟩
  · cases h
  · cases h
    exact ⟨a, rfl, rfl⟩

end Reading

variable {c : Char} {text rest : List Char} {n : Nat}

private theorem ne_return_of_unescape? {v : Char} (h : unescape? c = some v) : v ≠ '\r' := by
  unfold unescape? at h
  split at h <;> cases h <;> decide

/-! ### Literals -/

/-- What is read from the body of a string holds no carriage return. -/
theorem return_not_mem_of_stringBody {raw escaped : Bool} {value : List Char}
    (h : stringBody raw escaped text = .ok (value, n)) (ht : '\r' ∉ text) : '\r' ∉ value := by
  induction text generalizing escaped value n with
  | nil => cases h
  | cons c rest ih =>
    obtain ⟨hc, hrest⟩ := List.ne_and_not_mem_of_not_mem_cons ht
    cases escaped with
    | true =>
      rw [stringBody] at h
      split at h
      · cases h
      split at h
      · next v hv =>
        obtain ⟨i, h⟩ := Reading.exists_of_after h
        obtain ⟨others, hothers, rfl⟩ := Reading.exists_of_map h
        exact List.not_mem_cons_of_ne_of_not_mem (ne_return_of_unescape? hv).symm (ih hothers hrest)
      · cases h
    | false =>
      rw [stringBody] at h
      split at h
      · cases h
      split at h
      · cases h
        exact List.not_mem_nil
      split at h
      · obtain ⟨i, h⟩ := Reading.exists_of_after h
        exact ih h hrest
      · obtain ⟨i, h⟩ := Reading.exists_of_after h
        obtain ⟨others, hothers, rfl⟩ := Reading.exists_of_map h
        exact List.not_mem_cons_of_ne_of_not_mem hc (ih hothers hrest)

private theorem eq_of_closing {v w : Char} (h : closing v text = .ok (w, n)) : w = v := by
  unfold closing at h
  split at h <;> cases h
  rfl

/-- What is read from the body of a character literal is no carriage return. -/
theorem ne_return_of_charBody {raw : Bool} {v : Char} (h : charBody raw text = .ok (v, n))
    (ht : '\r' ∉ text) : v ≠ '\r' := by
  cases text with
  | nil => cases h
  | cons c rest =>
    rw [charBody] at h
    split at h
    · cases h
    split at h
    · cases h
    split at h
    · obtain ⟨i, h⟩ := Reading.exists_of_after h
      cases rest with
      | nil => cases h
      | cons d rest =>
        rw [escapedBody] at h
        split at h
        · cases h
        split at h
        · next w hw =>
          obtain ⟨j, h⟩ := Reading.exists_of_after h
          rw [eq_of_closing h]
          exact ne_return_of_unescape? hw
        · cases h
    · obtain ⟨i, h⟩ := Reading.exists_of_after h
      rw [eq_of_closing h]
      rintro rfl
      exact ht List.mem_cons_self

private theorem spellable_of_stringLiteral {raw : Bool} {kind : TokenKind}
    (h : stringLiteral raw text = .ok (kind, n)) (ht : '\r' ∉ text) : kind.Spellable := by
  obtain ⟨value, hbody, rfl⟩ := Reading.exists_of_map h
  have hvalue := return_not_mem_of_stringBody hbody ht
  rwa [← String.toList_ofList (l := value)] at hvalue

private theorem spellable_of_charLiteral {raw : Bool} {kind : TokenKind}
    (h : charLiteral raw text = .ok (kind, n)) (ht : '\r' ∉ text) : kind.Spellable := by
  obtain ⟨v, hbody, rfl⟩ := Reading.exists_of_map h
  exact ne_return_of_charBody hbody ht

private theorem spellable_of_rawLiteral {kind : TokenKind} (h : rawLiteral text = .ok (kind, n))
    (ht : '\r' ∉ text) : kind.Spellable := by
  unfold rawLiteral at h
  split at h
  · obtain ⟨i, h⟩ := Reading.exists_of_after h
    exact spellable_of_stringLiteral h fun hm ↦ ht (List.mem_cons_of_mem _ hm)
  · obtain ⟨i, h⟩ := Reading.exists_of_after h
    exact spellable_of_charLiteral h fun hm ↦ ht (List.mem_cons_of_mem _ hm)
  · cases h

/-- Only finite numbers are in the range of a kind. -/
theorem spellable_of_scalar? {kind : NumberKind} {negative : Bool} {whole fraction : List Char}
    {v : Scalar} (h : kind.scalar? negative whole fraction = some v) :
    (TokenKind.literal v).Spellable := by
  cases kind with
  | float | double =>
    simp only [NumberKind.scalar?, NumberKind.finite?] at h
    split at h
    · next hx =>
      cases h
      exact hx
    · cases h
  | int | uint | long | short | byte =>
    obtain ⟨_, _, rfl⟩ := Option.map_eq_some_iff.mp h
    trivial

private theorem spellable_of_number {v : Scalar} (h : number text = .ok (v, n)) :
    (TokenKind.literal v).Spellable := by
  have hfinish : ∀ {m : Numeral} {kind : NumberKind} {taken : Nat},
      m.finish kind taken = .ok (v, n) → (TokenKind.literal v).Spellable := by
    intro m kind taken hm
    unfold Numeral.finish at hm
    split at hm
    · next hv =>
      cases hm
      exact spellable_of_scalar? hv
    · cases hm
  unfold number at h
  dsimp only at h
  split at h
  · cases h
  split at h
  · split at h
    · cases h
    · exact hfinish h
  · exact hfinish h

/-! ### Words and symbols -/

private theorem spellable_of_word {kind : TokenKind} (hc : isIdentifierStart c)
    (h : word (c :: rest) = .ok (kind, n)) : kind.Spellable := by
  have hbody := isIdentifierBody_of_isIdentifierStart hc
  cases h
  rw [List.takeWhile_cons_of_pos hbody, ofWord]
  split
  · trivial
  split
  · trivial
  · next htrue hfalse =>
    split
    · trivial
    · next hk =>
      refine ⟨⟨c, _, String.toList_ofList, hc⟩, ?_, htrue, hfalse, ?_⟩
      · intro d hd
        rw [String.toList_ofList] at hd
        rcases List.mem_cons.mp hd with rfl | hd
        · exact hbody
        · exact List.mem_takeWhile_imp hd
      · intro k hword
        rw [← hword, Keyword.ofWord?_word] at hk
        cases hk

private theorem spellable_of_symbol {kind : TokenKind} (h : symbol c rest = .ok (kind, n)) :
    kind.Spellable := by
  unfold symbol at h
  split at h
  · next s hs =>
    cases h
    unfold Symbol.ofChar? at hs
    split at hs <;> cases hs <;> exact nofun
  · split at h
    · next s hs =>
      cases h
      obtain ⟨d, _, hs⟩ := Option.bind_eq_some_iff.mp hs
      unfold Symbol.ofPair? at hs
      split at hs <;> cases hs
      exact nofun
    · cases h

/-- A token that is read from a text without carriage returns is spellable. -/
theorem spellable_of_one {kind : TokenKind} (h : one c rest = .ok (kind, n))
    (ht : '\r' ∉ c :: rest) : kind.Spellable := by
  have hrest : '\r' ∉ rest := fun hm ↦ ht (List.mem_cons_of_mem _ hm)
  unfold one at h
  split at h
  · obtain ⟨i, h⟩ := Reading.exists_of_after h
    exact spellable_of_stringLiteral h hrest
  split at h
  · obtain ⟨i, h⟩ := Reading.exists_of_after h
    exact spellable_of_charLiteral h hrest
  split at h
  · obtain ⟨i, h⟩ := Reading.exists_of_after h
    exact spellable_of_rawLiteral h hrest
  split at h
  · next hc => exact spellable_of_word hc h
  split at h
  · obtain ⟨v, hv, rfl⟩ := Reading.exists_of_map h
    exact spellable_of_number hv
  · exact spellable_of_symbol h

/-- Every token of a text without carriage returns is spellable, also in front of an error. -/
theorem spellable_of_mem_scanFrom {p : Text.Position} (ht : '\r' ∉ text) :
    ∀ t ∈ (scanFrom p text).tokens, t.kind.Spellable := by
  fun_induction scanFrom p text with
  | case1 => exact List.forall_mem_nil _
  | case2 => exact List.forall_mem_nil _
  | case3 p text gap start c rest hrest kind n hone lexeme _ others ih =>
    have hsuffix : '\r' ∉ c :: rest := fun hm ↦ ht (List.mem_of_mem_drop (hrest ▸ hm))
    intro t hm
    rcases List.mem_cons.mp hm with rfl | hm
    · exact spellable_of_one hone hsuffix
    · exact ih (fun hm ↦ hsuffix (List.mem_of_mem_drop hm)) t hm

/-- The tokens of a source are spellable. -/
theorem spellable_of_lex {source : String} {tokens : List Token} (h : lex source = .ok tokens) :
    ∀ t ∈ tokens, t.kind.Spellable := by
  have htokens : ∀ t ∈ (scan source).tokens, t.kind.Spellable :=
    spellable_of_mem_scanFrom (Text.LineEnding.return_not_mem_unify _)
  unfold lex at h
  split at h
  · next heq =>
    cases h
    rwa [heq] at htokens
  · cases h

/-! ### Spellings -/

/-- A character that ends a line, in some text or other. -/
def IsLineEnd (c : Char) : Prop := c = '\r' ∨ c = '\n'

/-- A character that numbers are written with. -/
def IsNumeric (c : Char) : Prop := c.isDigit ∨ c = '-' ∨ c = '.'

private theorem isNumeric_of_mem_text {m : Numeral} (h : m.WellFormed) (hc : c ∈ m.text) :
    IsNumeric c := by
  unfold Numeral.text at hc
  rcases List.mem_append.mp hc with hc | hc
  · rcases List.mem_append.mp hc with hc | hc
    · split at hc
      · exact .inr (.inl (List.mem_singleton.mp hc))
      · cases hc
    · exact .inl (h.isDigit_whole c hc)
  · split at hc
    · next fraction hf =>
      rcases List.mem_cons.mp hc with rfl | hc
      · exact .inr (.inr rfl)
      · exact .inl (h.isDigit_fraction c (hf ▸ hc))
    · cases hc

private theorem isNumeric_of_mem_integerText {i : Int} (hc : c ∈ integerText i) : IsNumeric c := by
  rw [← Numeral.text_ofInt] at hc
  exact isNumeric_of_mem_text (Numeral.wellFormed_ofInt i) hc

private theorem isNumeric_of_mem_digits {k : Nat} (hc : c ∈ digits k) : IsNumeric c :=
  .inl (isDigit_of_mem_digits hc)

private theorem isNumeric_of_mem_binary {f : Format} {x : Binary f} (hx : x.isFinite)
    (hc : c ∈ x.text) :
    IsNumeric c := by
  obtain ⟨m, hm, ht, -⟩ := Numeral.exists_of_isFinite hx
  rw [← ht] at hc
  exact isNumeric_of_mem_text hm hc

namespace IsLineEnd

variable (hc : IsLineEnd c)

include hc

private theorem not_isNumeric : ¬ IsNumeric c := by
  unfold IsNumeric
  rcases hc with rfl | rfl <;> decide

private theorem not_mem_escape {quote d : Char} (hd : d ≠ '\r') : c ∉ Scalar.escape quote d := by
  obtain ⟨hbackslash, hn, ht⟩ : c ≠ '\\' ∧ c ≠ 'n' ∧ c ≠ 't' := by
    rcases hc with rfl | rfl <;> decide
  unfold Scalar.escape
  split
  · simp [hbackslash]
  split
  · simp [hbackslash, hn]
  split
  · simp [hbackslash, ht]
  · next hnewline _ =>
    have hcd : c ≠ d := by
      rcases hc with rfl | rfl
      · exact hd.symm
      · exact Ne.symm hnewline
    split <;> simp [hbackslash, hcd]

/-- No spelling holds the end of a line. -/
theorem not_mem_spelling {kind : TokenKind} (h : kind.Spellable) : c ∉ kind.spelling := by
  have hnumber : ∀ {cs : List Char}, (∀ d ∈ cs, IsNumeric d) → c ∉ cs :=
    fun hcs hm ↦ hc.not_isNumeric (hcs c hm)
  have hne : ∀ {d : Char}, d ≠ '\r' ∧ d ≠ '\n' → c ≠ d := by
    rintro d ⟨hreturn, hnewline⟩ rfl
    exact hc.elim hreturn hnewline
  have hbehind : ∀ {cs : List Char} {d : Char}, c ∉ cs → d ≠ '\r' ∧ d ≠ '\n' →
      c ∉ cs ++ [d] := by
    intro cs d hcs hd
    simp [hcs, hne hd]
  match kind with
  | .identifier _ =>
    intro hm
    have hbody := h.2.1 c hm
    rcases hc with rfl | rfl <;> exact absurd hbody (by decide)
  | .keyword k => rcases hc with rfl | rfl <;> cases k <;> decide
  | .symbol s => rcases hc with rfl | rfl <;> cases s <;> decide
  | .literal (.bool b) => rcases hc with rfl | rfl <;> cases b <;> decide
  | .literal (.byte k) => exact hbehind (hnumber fun _ ↦ isNumeric_of_mem_digits) (by decide)
  | .literal (.short i) => exact hbehind (hnumber fun _ ↦ isNumeric_of_mem_integerText) (by decide)
  | .literal (.int i) => exact hnumber fun _ ↦ isNumeric_of_mem_integerText
  | .literal (.uint k) => exact hbehind (hnumber fun _ ↦ isNumeric_of_mem_digits) (by decide)
  | .literal (.long i) => exact hbehind (hnumber fun _ ↦ isNumeric_of_mem_integerText) (by decide)
  | .literal (.float _) => exact hbehind (hnumber fun _ ↦ isNumeric_of_mem_binary h) (by decide)
  | .literal (.double _) => exact hbehind (hnumber fun _ ↦ isNumeric_of_mem_binary h) (by decide)
  | .literal (.char d) =>
    refine hbehind ?_ (by decide)
    exact List.not_mem_cons_of_ne_of_not_mem (hne (by decide)) (hc.not_mem_escape h)
  | .literal (.string s) =>
    have hbody : c ∉ s.toList.flatMap (Scalar.escape '"') := by
      intro hm
      obtain ⟨d, hd, hm⟩ := List.mem_flatMap.mp hm
      refine hc.not_mem_escape ?_ hm
      rintro rfl
      exact h hd
    exact hbehind (List.not_mem_cons_of_ne_of_not_mem (hne (by decide)) hbody) (by decide)

end IsLineEnd

/-- The description of a token is one line. -/
theorem newline_not_mem_description {kind : TokenKind} (h : kind.Spellable) :
    '\n' ∉ kind.description.toList := by
  have hspelling : '\n' ∉ kind.spelling := IsLineEnd.not_mem_spelling (.inr rfl) h
  have hprimitive : ∀ p : Primitive, '\n' ∉ p.name.toList := by
    intro p
    cases p <;> decide
  unfold description
  cases kind <;> simp [hspelling, hprimitive]

example : description (.literal (.string "a\nb")) = "LITERAL<string> \"a\\nb\"" := by decide

end Token

end TestDeclaration
