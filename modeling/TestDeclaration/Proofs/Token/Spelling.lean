import TestDeclaration.Proofs.Token.Numeral

/-!
# Spellings are read back

Which tokens have a spelling that the lexer reads as the same token, and that it does so: at the
start of every text in which a blank follows the spelling, or nothing. There is one lemma for each
reader of the lexer.
-/

namespace TestDeclaration

open Number Token

namespace TokenKind

/-- Whether a token can be read from a text. -/
def Spellable : TokenKind → Prop
  | .keyword _ => True
  | .symbol s => s ≠ .questionMark
  | .identifier name => (∃ c cs, name.toList = c :: cs ∧ isIdentifierStart c) ∧
      (∀ c ∈ name.toList, isIdentifierBody c) ∧ name ≠ "true" ∧ name ≠ "false" ∧
      ∀ k : Keyword, k.word ≠ name
  | .literal (.string s) => '\r' ∉ s.toList
  | .literal (.char c) => c ≠ '\r'
  | .literal (.float x) => x.isFinite
  | .literal (.double x) => x.isFinite
  | .literal _ => True

/-- A text goes on with a blank, or it ends. -/
def Separated (rest : List Char) : Prop := ∀ c ∈ rest.head?, isBlank c

/-- The spelling of a token is not layout and is read as this token, when it is separated from what
follows. -/
def ReadsBack (kind : TokenKind) : Prop :=
  ∃ c cs, kind.spelling = c :: cs ∧ ∀ rest, Separated rest →
    layoutLength false (c :: cs ++ rest) = 0 ∧ one c (cs ++ rest) = .ok (kind, (c :: cs).length)

end TokenKind

open TokenKind

namespace Token

variable {c : Char} {cs rest : List Char}

private theorem layoutLength_eq_zero (hb : isBlank c = false) (hc : c ≠ ':') :
    layoutLength false (c :: rest) = 0 := by
  simp [layoutLength, hb, hc]

/-! ### Words -/

private theorem eq_of_isBlank (hc : isBlank c) : c = ' ' ∨ c = '\t' ∨ c = '\n' := by
  simpa only [isBlank, Bool.or_eq_true, beq_iff_eq, or_assoc] using hc

private theorem not_isIdentifierBody_of_isBlank (hc : isBlank c) : ¬ isIdentifierBody c := by
  rcases eq_of_isBlank hc with rfl | rfl | rfl <;> decide

private theorem ne_of_isIdentifierStart {d : Char} (hc : isIdentifierStart c)
    (hd : ¬ isIdentifierStart d) :
    c ≠ d := by
  rintro rfl
  exact hd hc

/-- What can start an identifier can go on with it. -/
theorem isIdentifierBody_of_isIdentifierStart (hc : isIdentifierStart c) : isIdentifierBody c := by
  rw [isIdentifierBody, hc]
  rfl

/-- What can start an identifier starts a word. -/
theorem one_of_isIdentifierStart (hc : isIdentifierStart c) : one c cs = word (c :: cs) := by
  rw [one, if_neg (ne_of_isIdentifierStart hc (by decide)),
    if_neg (ne_of_isIdentifierStart hc (by decide)),
    if_neg (ne_of_isIdentifierStart hc (by decide)), if_pos hc]

/-- A word ends where a blank follows. -/
theorem one_word (hc : isIdentifierStart c) (hcs : ∀ d ∈ c :: cs, isIdentifierBody d)
    (hr : Separated rest) :
    one c (cs ++ rest) = .ok (ofWord (String.ofList (c :: cs)), (c :: cs).length) := by
  have htake : (c :: (cs ++ rest)).takeWhile isIdentifierBody = c :: cs := by
    rw [← List.cons_append, List.takeWhile_append_of_pos hcs]
    cases rest with
    | nil => simp
    | cons b rest => simp [not_isIdentifierBody_of_isBlank (hr b rfl)]
  rw [one_of_isIdentifierStart hc, word]
  simp only [htake]

/-- A word that some text writes is read as what this word means. -/
theorem readsBack_of_word {kind : TokenKind} (hk : kind.spelling = c :: cs)
    (hc : isIdentifierStart c) (hcs : ∀ d ∈ c :: cs, isIdentifierBody d)
    (hw : ofWord (String.ofList (c :: cs)) = kind) : kind.ReadsBack := by
  refine ⟨c, cs, hk, fun rest hr ↦ ⟨layoutLength_eq_zero ?_ ?_, ?_⟩⟩
  · rw [Bool.eq_false_iff]
    exact fun hb ↦ not_isIdentifierBody_of_isBlank hb (hcs c List.mem_cons_self)
  · exact ne_of_isIdentifierStart hc (by decide)
  · rw [one_word hc hcs hr, hw]

private theorem readsBack_keyword (k : Keyword) : (TokenKind.keyword k).ReadsBack := by
  cases k <;> exact readsBack_of_word rfl rfl (List.all_eq_true.mp rfl) rfl

private theorem readsBack_bool (b : Bool) : (TokenKind.literal (.bool b)).ReadsBack := by
  cases b <;> exact readsBack_of_word rfl rfl (List.all_eq_true.mp rfl) rfl

private theorem readsBack_identifier {name : String} (h : (TokenKind.identifier name).Spellable) :
    (TokenKind.identifier name).ReadsBack := by
  obtain ⟨⟨c, cs, hname, hc⟩, hbody, htrue, hfalse, hkeyword⟩ := h
  rw [hname] at hbody
  refine readsBack_of_word hname hc hbody ?_
  rw [← hname, String.ofList_toList, ofWord, if_neg htrue, if_neg hfalse]
  cases hk : Keyword.ofWord? name with
  | none => rfl
  | some k => exact absurd (Keyword.word_of_ofWord? hk) (hkeyword k)

/-! ### Quoted literals -/

/-- Readings behind two texts are behind both together. -/
theorem Reading.after_after {α : Type} (r : Reading α) (n k : Nat) :
    (r.after k).after n = r.after (n + k) := by
  rcases r with ⟨problem, i⟩ | ⟨a, i⟩ <;> simp only [after, Nat.add_assoc]

/-- An escaped character in a string is read as the character. -/
theorem stringBody_escape (c : Char) (text : List Char) :
    stringBody false false (Scalar.escape '"' c ++ text) =
      ((stringBody false false text).map (c :: ·)).after (Scalar.escape '"' c).length := by
  unfold Scalar.escape
  split
  · next hc =>
    subst hc
    simp [stringBody, unescape?, Reading.after_after]
  split
  · next hc =>
    subst hc
    simp [stringBody, unescape?, Reading.after_after]
  split
  · next hc =>
    subst hc
    simp [stringBody, unescape?, Reading.after_after]
  split
  · next hc =>
    subst hc
    simp [stringBody, unescape?, Reading.after_after]
  · next hslash hnewline _ hquote => simp [stringBody, hslash, hnewline, hquote]

private theorem stringBody_spelling (s rest : List Char) :
    stringBody false false (s.flatMap (Scalar.escape '"') ++ '"' :: rest) =
      .ok (s, (s.flatMap (Scalar.escape '"')).length + 1) := by
  induction s with
  | nil => rfl
  | cons c s ih =>
    rw [List.flatMap_cons, List.append_assoc, stringBody_escape, ih]
    simp only [Reading.map, Reading.after, List.length_append, Nat.add_assoc]

private theorem charBody_spelling (c : Char) (rest : List Char) :
    charBody false (Scalar.escape '\'' c ++ '\'' :: rest) =
      .ok (c, (Scalar.escape '\'' c).length + 1) := by
  unfold Scalar.escape
  split
  · next hc =>
    subst hc
    rfl
  split
  · next hc =>
    subst hc
    rfl
  split
  · next hc =>
    subst hc
    rfl
  split
  · next hc =>
    subst hc
    rfl
  · next hslash hnewline _ hquote =>
    simp [charBody, closing, hslash, hnewline, hquote, Reading.after]

private theorem readsBack_string (s : String) : (TokenKind.literal (.string s)).ReadsBack := by
  refine ⟨'"', s.toList.flatMap (Scalar.escape '"') ++ ['"'], rfl, fun rest _ ↦ ⟨rfl, ?_⟩⟩
  rw [one, if_pos rfl, stringLiteral, List.append_assoc, List.singleton_append,
    stringBody_spelling, Reading.map, Reading.after, String.ofList_toList, List.length_cons,
    List.length_append, List.length_singleton, Nat.add_comm]

private theorem readsBack_char (c : Char) : (TokenKind.literal (.char c)).ReadsBack := by
  refine ⟨'\'', Scalar.escape '\'' c ++ ['\''], rfl, fun rest _ ↦ ⟨rfl, ?_⟩⟩
  rw [one, if_neg (by decide), if_pos rfl, charLiteral, List.append_assoc, List.singleton_append,
    charBody_spelling, Reading.map, Reading.after, List.length_cons, List.length_append,
    List.length_singleton, Nat.add_comm]

/-! ### Symbols -/

private theorem readsBack_symbol {s : Symbol} (h : s ≠ .questionMark) :
    (TokenKind.symbol s).ReadsBack := by
  cases s with
  | arrow => exact ⟨'-', ['>'], rfl, fun rest _ ↦ ⟨rfl, rfl⟩⟩
  | colon =>
    -- A second colon would start a comment.
    refine ⟨':', [], rfl, fun rest hr ↦ ⟨?_, rfl⟩⟩
    have hcolon : rest.head? ≠ some ':' := fun hc ↦ absurd (hr ':' hc) (by decide)
    simp [layoutLength, isBlank, hcolon]
  | semicolon => exact ⟨';', [], rfl, fun rest _ ↦ ⟨rfl, rfl⟩⟩
  | leftParen => exact ⟨'(', [], rfl, fun rest _ ↦ ⟨rfl, rfl⟩⟩
  | rightParen => exact ⟨')', [], rfl, fun rest _ ↦ ⟨rfl, rfl⟩⟩
  | comma => exact ⟨',', [], rfl, fun rest _ ↦ ⟨rfl, rfl⟩⟩
  | tilde => exact ⟨'~', [], rfl, fun rest _ ↦ ⟨rfl, rfl⟩⟩
  | questionMark => exact absurd rfl h

/-! ### Numbers -/

/-- Letters stand behind the digits. -/
theorem le_toNat_of_isAlpha (hc : c.isAlpha) : 'A'.toNat ≤ c.toNat := by
  rcases Bool.or_eq_true_iff.mp hc with h | h
  · have hupper : 'A'.val ≤ c.val := (of_decide_eq_true h).1
    exact UInt32.le_iff_toNat_le.mp hupper
  · have hlower : 'a'.val ≤ c.val := of_decide_eq_true (Bool.and_eq_true_iff.mp h).1
    exact Nat.le_trans (by decide) (UInt32.le_iff_toNat_le.mp hlower)

private theorem not_isIdentifierStart_of_isDigit (hc : c.isDigit) : ¬ isIdentifierStart c := by
  intro hstart
  rcases Bool.or_eq_true_iff.mp hstart with halpha | hunderscore
  · have hle := le_toNat_of_isAlpha halpha
    have hdigit := (Char.isDigit_iff_toNat.mp hc).2
    exact absurd (Nat.le_trans hle hdigit) (by decide)
  · rw [eq_of_beq hunderscore] at hc
    exact absurd hc (by decide)

private theorem ne_of_isDigit_or_minus {d : Char} (hc : c.isDigit ∨ c = '-') (hd : ¬ d.isDigit)
    (hminus : d ≠ '-') : c ≠ d := by
  rintro rfl
  exact hc.elim hd hminus

/-- Digits, and a sign in front of digits, start a number. -/
theorem one_number (hc : c.isDigit ∨ (c = '-' ∧ cs.head?.any Char.isDigit)) :
    one c cs = (number (c :: cs)).map .literal := by
  have hne : ∀ {d : Char}, ¬ d.isDigit → d ≠ '-' → c ≠ d :=
    ne_of_isDigit_or_minus (hc.imp_right And.left)
  have hstart : ¬ isIdentifierStart c := by
    rcases hc with hc | ⟨rfl, -⟩
    · exact not_isIdentifierStart_of_isDigit hc
    · decide
  rw [one, if_neg (hne (by decide) (by decide)), if_neg (hne (by decide) (by decide)),
    if_neg (hne (by decide) (by decide)), if_neg hstart, if_pos hc]

/-- The text of a numeral is not layout, and a number is read where it stands. -/
theorem exists_one_numeral {n : Numeral} (h : n.WellFormed) (suffix : List Char) :
    ∃ c cs, n.text ++ suffix = c :: cs ∧ ∀ rest, layoutLength false (c :: cs ++ rest) = 0 ∧
      one c (cs ++ rest) = (number (n.text ++ (suffix ++ rest))).map .literal := by
  obtain ⟨c, cs, hcs, hstart⟩ := h.exists_cons_text_append suffix
  refine ⟨c, cs, hcs, fun rest ↦ ⟨?_, ?_⟩⟩
  · have hne : ∀ {d : Char}, ¬ d.isDigit → d ≠ '-' → c ≠ d :=
      ne_of_isDigit_or_minus ((hstart rest).imp_right And.left)
    refine layoutLength_eq_zero ?_ (hne (by decide) (by decide))
    rw [Bool.eq_false_iff]
    intro hb
    rcases eq_of_isBlank hb with hc | hc | hc <;> exact hne (by decide) (by decide) hc
  · rw [one_number (hstart rest), ← List.cons_append, ← hcs, List.append_assoc]

/-- The text of a numeral and perhaps a letter, read as a number. -/
theorem readsBack_number {n : Numeral} (h : n.WellFormed) (suffix : List Char) {v : Scalar}
    (hk : v.spelling = n.text ++ suffix)
    (hn : ∀ rest, Separated rest →
      number (n.text ++ (suffix ++ rest)) = .ok (v, (n.text ++ suffix).length)) :
    (TokenKind.literal v).ReadsBack := by
  obtain ⟨c, cs, hcs, hone⟩ := exists_one_numeral h suffix
  refine ⟨c, cs, hk.trans hcs, fun rest hr ↦ ⟨(hone rest).1, ?_⟩⟩
  rw [(hone rest).2, hn rest hr, ← hcs]
  rfl

/-- A numeral with the letter of its kind is read as a number of this kind. -/
theorem readsBack_letter {n : Numeral} (h : n.WellFormed) (letter : Char) {kind : NumberKind}
    {v : Scalar} (hk : v.spelling = n.text ++ [letter])
    (hl : NumberKind.ofLetter? letter = some kind)
    (ho : objection? kind n.negative n.hasPoint = none)
    (hv : kind.scalar? n.negative n.whole (n.fraction?.getD []) = some v) :
    (TokenKind.literal v).ReadsBack := by
  refine readsBack_number h [letter] hk fun rest _ ↦ ?_
  rw [List.singleton_append, Numeral.number_append_letter h hl ho hv, List.length_append,
    List.length_singleton]

/-- An int is read back from its digits alone. -/
theorem readsBack_int (i : Int32) : (TokenKind.literal (.int i)).ReadsBack := by
  have h := Numeral.wellFormed_ofInt i.toInt
  refine readsBack_number h [] ?_ fun rest hr ↦ ?_
  · rw [List.append_nil, Numeral.text_ofInt]
    rfl
  · rw [List.nil_append, List.append_nil]
    refine Numeral.number_append_blank h rfl ?_ hr
    rw [NumberKind.scalar?, Numeral.value_ofInt, int?, Range.words_int.word?_toInt, Option.map_some]

/-- A word is read back from its number and the letter of its kind. -/
theorem readsBack_word {α : Type} {r : Range} {ofInt : Int → α} {toInt : α → Int}
    (hw : r.Words ofInt toInt) {make : α → Scalar} {kind : NumberKind} (letter : Char) (n : α)
    (hspelling : (make n).spelling = (Numeral.ofInt (toInt n)).text ++ [letter])
    (hletter : NumberKind.ofLetter? letter = some kind)
    (hsign : objection? kind (Numeral.ofInt (toInt n)).negative false = none)
    (hscalar : ∀ negative whole, kind.scalar? negative whole [] =
      (r.word? ofInt (if negative then -(ofDigits whole : Int) else ofDigits whole)).map make) :
    (TokenKind.literal (make n)).ReadsBack := by
  refine readsBack_letter (Numeral.wellFormed_ofInt (toInt n)) letter hspelling hletter hsign ?_
  change kind.scalar? _ _ [] = _
  rw [hscalar, Numeral.value_ofInt, hw.word?_toInt, Option.map_some]

/-- No sign is written in front of a natural number. -/
theorem negative_ofInt_natCast (k : Nat) : (Numeral.ofInt k).negative = false :=
  decide_eq_false (Int.not_lt.mpr (Int.natCast_nonneg k))

/-- A finite number is read back from its decimal and the letter of its kind. -/
theorem readsBack_binary {f : Format} {make : Binary f → Scalar} {kind : NumberKind}
    (letter : Char) {x : Binary f} (hx : x.isFinite)
    (hspelling : (make x).spelling = x.text ++ [letter])
    (hletter : NumberKind.ofLetter? letter = some kind)
    (hobjection : ∀ negative point, objection? kind negative point = none)
    (hscalar : ∀ negative whole fraction, kind.scalar? negative whole fraction =
      NumberKind.finite? make ((Decimal.ofParts negative whole fraction).toBinary f)) :
    (TokenKind.literal (make x)).ReadsBack := by
  obtain ⟨n, h, ht, hb⟩ := Numeral.exists_of_isFinite hx
  refine readsBack_letter h letter (ht ▸ hspelling) hletter (hobjection _ _) ?_
  rw [hscalar, hb, NumberKind.finite?, if_pos hx]

/-- Every spelling is read back. -/
theorem readsBack_of_spellable {kind : TokenKind} (h : kind.Spellable) : kind.ReadsBack := by
  match kind with
  | .identifier _ => exact readsBack_identifier h
  | .keyword k => exact readsBack_keyword k
  | .symbol _ => exact readsBack_symbol h
  | .literal (.bool b) => exact readsBack_bool b
  | .literal (.byte k) =>
    refine readsBack_word Range.words_byte 'b' k ?_ rfl ?_ fun _ _ ↦ rfl
    · rw [Numeral.text_ofInt_natCast]
      rfl
    · rw [negative_ofInt_natCast]
      rfl
  | .literal (.char c) => exact readsBack_char c
  | .literal (.short i) =>
    refine readsBack_word Range.words_short 's' i ?_ rfl rfl fun _ _ ↦ rfl
    rw [Numeral.text_ofInt]
    rfl
  | .literal (.int i) => exact readsBack_int i
  | .literal (.uint k) =>
    refine readsBack_word Range.words_uint 'u' k ?_ rfl ?_ fun _ _ ↦ rfl
    · rw [Numeral.text_ofInt_natCast]
      rfl
    · rw [negative_ofInt_natCast]
      rfl
  | .literal (.long i) =>
    refine readsBack_word Range.words_long 'l' i ?_ rfl rfl fun _ _ ↦ rfl
    rw [Numeral.text_ofInt]
    rfl
  | .literal (.float _) => exact readsBack_binary 'f' h rfl rfl (fun _ _ ↦ rfl) fun _ _ _ ↦ rfl
  | .literal (.double _) => exact readsBack_binary 'd' h rfl rfl (fun _ _ ↦ rfl) fun _ _ _ ↦ rfl
  | .literal (.string s) => exact readsBack_string s

end Token

end TestDeclaration
