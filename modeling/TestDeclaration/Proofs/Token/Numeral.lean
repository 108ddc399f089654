import TestDeclaration.Proofs.Number.Rounding
import TestDeclaration.Token.Lexer

/-!
# Numbers are read back

The text of every number is a numeral: a sign, digits, and perhaps a point with more digits. A
numeral ends where no digit and no point follows, so a letter or a blank behind it is not lost in
it, and the letter of its kind makes it the same number again.
-/

namespace TestDeclaration

open Number Token

namespace Token.Numeral

/-- A numeral as numbers have it: digits before the point, and only digits. -/
structure WellFormed (n : Numeral) : Prop where
  whole_ne_nil : n.whole ≠ []
  isDigit_whole : ∀ c ∈ n.whole, c.isDigit
  isDigit_fraction : ∀ c ∈ n.fraction?.getD [], c.isDigit

variable {n : Numeral} {text rest : List Char}

/-- Digits are taken up to the first character that is none. -/
theorem takeWhile_isDigit_append (ht : ∀ c ∈ text, c.isDigit)
    (hr : ∀ c ∈ rest.head?, ¬ c.isDigit) : (text ++ rest).takeWhile Char.isDigit = text := by
  rw [List.takeWhile_append_of_pos ht]
  cases rest with
  | nil => simp
  | cons c rest => simp [hr c rfl]

/-- Behind the digits is what starts with no digit. -/
theorem dropWhile_isDigit_append (ht : ∀ c ∈ text, c.isDigit)
    (hr : ∀ c ∈ rest.head?, ¬ c.isDigit) : (text ++ rest).dropWhile Char.isDigit = rest := by
  rw [List.dropWhile_append_of_pos ht]
  cases rest with
  | nil => rfl
  | cons c rest => simp [hr c rfl]

/-- What stands behind the sign is split at its digits. -/
theorem split_signed {negative : Bool} {unsigned : List Char} (hs : unsigned.head? ≠ some '-') :
    split ((if negative then ['-'] else []) ++ unsigned) =
      match unsigned.dropWhile Char.isDigit with
      | '.' :: others => (⟨negative, unsigned.takeWhile Char.isDigit,
          some (others.takeWhile Char.isDigit)⟩, others.dropWhile Char.isDigit)
      | others => (⟨negative, unsigned.takeWhile Char.isDigit, none⟩, others) := by
  cases negative with
  | true => rfl
  | false =>
    simp only [Bool.false_eq_true, if_false, List.nil_append]
    unfold split
    split
    rename_i heq
    split at heq
    · exact absurd rfl hs
    · cases heq
      rfl

/-- A numeral is split off as it is written. A point ends it only if it has one already. -/
theorem split_text_append (h : n.WellFormed) (hr : ∀ c ∈ rest.head?, ¬ c.isDigit)
    (hp : n.hasPoint ∨ rest.head? ≠ some '.') : split (n.text ++ rest) = (n, rest) := by
  obtain ⟨negative, whole, fraction?⟩ := n
  obtain ⟨hne, hw, hf⟩ := h
  have hsign : ∀ others, (whole ++ others).head? ≠ some '-' := by
    intro others hc
    obtain ⟨c, whole, rfl⟩ := List.exists_cons_of_ne_nil hne
    cases hc
    exact absurd (hw '-' List.mem_cons_self) (by decide)
  rw [text, List.append_assoc, List.append_assoc, split_signed (hsign _)]
  cases fraction? with
  | none =>
    have hpoint : rest.head? ≠ some '.' := hp.resolve_left Bool.false_ne_true
    simp only [List.nil_append, takeWhile_isDigit_append hw hr, dropWhile_isDigit_append hw hr]
    split
    · exact absurd rfl hpoint
    · rfl
  | some fraction =>
    have hpoint : ∀ c ∈ ('.' :: (fraction ++ rest)).head?, ¬ c.isDigit := by
      rintro c ⟨⟩
      decide
    have hf' : ∀ c ∈ fraction, c.isDigit := hf
    simp only [List.cons_append, takeWhile_isDigit_append hw hpoint,
      dropWhile_isDigit_append hw hpoint]
    rw [takeWhile_isDigit_append hf' hr, dropWhile_isDigit_append hf' hr]

/-- The text of a numeral starts with a digit, or with a sign and a digit behind it. -/
theorem WellFormed.exists_cons_text_append (h : n.WellFormed) (suffix : List Char) :
    ∃ c cs, n.text ++ suffix = c :: cs ∧
      ∀ rest, c.isDigit ∨ (c = '-' ∧ (cs ++ rest).head?.any Char.isDigit) := by
  obtain ⟨w, ws, hw⟩ := List.exists_cons_of_ne_nil h.whole_ne_nil
  have hdigit : w.isDigit := h.isDigit_whole w (hw ▸ List.mem_cons_self)
  unfold Numeral.text
  rw [hw]
  cases n.negative with
  | true => exact ⟨'-', _, rfl, fun rest ↦ .inr ⟨rfl, hdigit⟩⟩
  | false => exact ⟨w, _, rfl, fun rest ↦ .inl hdigit⟩

/-- What follows a numeral decides how it is read: a letter asks for a kind, and without a letter a
point does. -/
theorem number_append (h : n.WellFormed) (hr : ∀ c ∈ rest.head?, ¬ c.isDigit ∧ c ≠ '.') :
    number (n.text ++ rest) = match rest.head?.bind NumberKind.ofLetter? with
      | some kind => match objection? kind n.negative n.hasPoint with
        | some problem => .error (problem, n.text.length)
        | none => n.finish kind (n.text.length + 1)
      | none => n.finish (if n.hasPoint then .float else .int) n.text.length := by
  have hpoint : rest.head? ≠ some '.' := fun hc ↦ (hr '.' hc).2 rfl
  unfold number
  rw [split_text_append h (fun c hc ↦ (hr c hc).1) (.inr hpoint)]
  exact if_neg fun hsecond ↦ hpoint hsecond.2

/-- A numeral has one point at most. -/
theorem number_append_point (h : n.WellFormed) (hp : n.hasPoint) (rest : List Char) :
    number (n.text ++ '.' :: rest) = .error (.secondPoint, n.text.length) := by
  have hr : ∀ c ∈ ('.' :: rest).head?, ¬ c.isDigit := by
    rintro c ⟨⟩
    decide
  unfold number
  rw [split_text_append h hr (.inl hp)]
  simp only [hp, List.head?_cons, and_self, if_true]

/-- A letter that asks for a kind is no part of a numeral. -/
theorem not_isDigit_of_ofLetter? {letter : Char} {kind : NumberKind}
    (hl : NumberKind.ofLetter? letter = some kind) : ¬ letter.isDigit ∧ letter ≠ '.' := by
  unfold NumberKind.ofLetter? at hl
  split at hl
  case h_8 => cases hl
  all_goals decide

/-- A numeral behind which a letter stands is read as a number of the kind of the letter. -/
theorem number_append_letter (h : n.WellFormed) {letter : Char} {kind : NumberKind} {v : Scalar}
    (hl : NumberKind.ofLetter? letter = some kind)
    (ho : objection? kind n.negative n.hasPoint = none)
    (hv : kind.scalar? n.negative n.whole (n.fraction?.getD []) = some v) :
    number (n.text ++ letter :: rest) = .ok (v, n.text.length + 1) := by
  have hr : ∀ c ∈ (letter :: rest).head?, ¬ c.isDigit ∧ c ≠ '.' := by
    rintro c ⟨⟩
    exact not_isDigit_of_ofLetter? hl
  rw [number_append h hr]
  simp only [List.head?_cons, Option.bind_some, hl, ho, finish, hv]

/-- A numeral without a point and without a letter behind it is read as an int. -/
theorem number_append_blank (h : n.WellFormed) (hp : n.fraction? = none) {v : Scalar}
    (hv : NumberKind.int.scalar? n.negative n.whole [] = some v)
    (hr : ∀ c ∈ rest.head?, isBlank c) :
    number (n.text ++ rest) = .ok (v, n.text.length) := by
  have hblank : ∀ c, isBlank c →
      (¬ c.isDigit ∧ c ≠ '.') ∧ NumberKind.ofLetter? c = none := by
    intro c hc
    simp only [isBlank, Bool.or_eq_true, beq_iff_eq] at hc
    rcases hc with (rfl | rfl) | rfl <;> decide
  have hletter : rest.head?.bind NumberKind.ofLetter? = none := by
    cases hc : rest.head? with
    | none => rfl
    | some c => exact (hblank c (hr c hc)).2
  rw [number_append h fun c hc ↦ (hblank c (hr c hc)).1]
  simp only [hletter, hasPoint, hp, Option.isSome_none, Bool.false_eq_true, if_false, finish,
    Option.getD_none, hv]

/-! ### Whole numbers -/

/-- The numeral of a whole number. -/
def ofInt (i : Int) : Numeral := ⟨i < 0, digits i.natAbs, none⟩

/-- The numeral of a whole number is well formed. -/
theorem wellFormed_ofInt (i : Int) : (ofInt i).WellFormed :=
  ⟨digits_ne_nil _, fun _ ↦ isDigit_of_mem_digits, nofun⟩

/-- The numeral of a whole number has its decimal text. -/
theorem text_ofInt (i : Int) : (ofInt i).text = integerText i := by
  unfold integerText
  split <;> simp [ofInt, text, *]

/-- The numeral of a natural number has its digits as text. -/
theorem text_ofInt_natCast (k : Nat) : (ofInt k).text = digits k := by
  rw [text_ofInt, integerText, if_neg (by omega), Int.natAbs_natCast]

/-- The numeral of a whole number writes it. -/
theorem value_ofInt (i : Int) :
    (if (ofInt i).negative then -(ofDigits (ofInt i).whole : Int) else ofDigits (ofInt i).whole) =
      i := by
  simp only [ofInt, ofDigits_digits, decide_eq_true_eq]
  split <;> omega

/-! ### Numbers with a point -/

/-- The numeral of a decimal number. -/
def ofDecimal (d : Decimal) : Numeral :=
  let written := digits d.coefficient
  let places := (-d.exponent).toNat
  if 0 ≤ d.exponent then ⟨d.negative, written ++ List.replicate d.exponent.toNat '0', none⟩
  else if places < written.length then
    ⟨d.negative, written.take (written.length - places),
      some (written.drop (written.length - places))⟩
  else ⟨d.negative, ['0'], some (List.replicate (places - written.length) '0' ++ written)⟩

private theorem text_ofDecimal (d : Decimal) : (ofDecimal d).text = d.text := by
  obtain ⟨negative, coefficient, exponent⟩ := d
  unfold ofDecimal Decimal.text Decimal.positional
  dsimp only
  split
  · cases negative <;> simp [text]
  split <;> cases negative <;> simp [text]

private theorem wellFormed_ofDecimal (d : Decimal) : (ofDecimal d).WellFormed := by
  have hdigits : ∀ c ∈ digits d.coefficient, c.isDigit := fun _ ↦ isDigit_of_mem_digits
  have hzeros : ∀ n, ∀ c ∈ List.replicate n '0', c.isDigit := by
    intro n c hc
    rw [List.eq_of_mem_replicate hc]
    decide
  unfold ofDecimal
  dsimp only
  split
  · refine ⟨?_, ?_, nofun⟩
    · exact List.append_ne_nil_of_left_ne_nil (digits_ne_nil _) _
    · intro c hc
      rcases List.mem_append.mp hc with hc | hc
      · exact hdigits c hc
      · exact hzeros _ c hc
  split
  · next hlt =>
    refine ⟨?_, fun c hc ↦ hdigits c (List.mem_of_mem_take hc),
      fun c hc ↦ hdigits c (List.mem_of_mem_drop hc)⟩
    rw [← List.length_pos_iff, List.length_take]
    omega
  · refine ⟨List.cons_ne_nil _ _, ?_, ?_⟩
    · intro c hc
      rw [List.mem_singleton.mp hc]
      decide
    · intro c hc
      rcases List.mem_append.mp hc with hc | hc
      · exact hzeros _ c hc
      · exact hdigits c hc

private theorem ofDigits_append_zeros (written : List Char) (n : Nat) :
    ofDigits (written ++ List.replicate n '0') = ofDigits written * 10 ^ n := by
  rw [ofDigits, Nat.ofDigitChars_append, Nat.ofDigitChars_replicate_zero, Nat.mul_comm, ofDigits]

private theorem ofDigits_zeros_append (written : List Char) (n : Nat) :
    ofDigits (List.replicate n '0' ++ written) = ofDigits written := by
  rw [ofDigits, Nat.ofDigitChars_append, Nat.ofDigitChars_replicate_zero, Nat.mul_zero, ofDigits]

/-- The numeral of a decimal number writes a number that is rounded to the same binary number. -/
theorem toBinary_ofDecimal (f : Format) (d : Decimal) :
    (Decimal.ofParts (ofDecimal d).negative (ofDecimal d).whole
      ((ofDecimal d).fraction?.getD [])).toBinary f = d.toBinary f := by
  obtain ⟨negative, coefficient, exponent⟩ := d
  unfold ofDecimal
  dsimp only
  split
  · next hnonneg =>
    have hzero : (-exponent).toNat = 0 := Int.toNat_of_nonpos (Int.neg_nonpos_of_nonneg hnonneg)
    simp only [Decimal.ofParts, Decimal.toBinary, Option.getD_none, List.append_nil,
      ofDigits_append_zeros, ofDigits_digits, List.length_nil, hzero]
    simp
  have hplaces : ∀ {n : Nat}, n = (-exponent).toNat → -(n : Int) = exponent := by
    rintro n rfl
    omega
  split
  · next hlt =>
    simp only [Decimal.ofParts, Option.getD_some, List.take_append_drop, ofDigits_digits]
    rw [hplaces]
    rw [List.length_drop]
    omega
  · next hle =>
    simp only [Decimal.ofParts, Option.getD_some]
    rw [show ['0'] = List.replicate 1 '0' from rfl, ofDigits_zeros_append, ofDigits_zeros_append,
      ofDigits_digits, hplaces]
    rw [List.length_append, List.length_replicate]
    omega

/-- The text of a finite number is a numeral that writes this number. -/
theorem exists_of_isFinite {f : Format} {x : Binary f} (hx : x.isFinite) :
    ∃ n : Numeral, n.WellFormed ∧ n.text = x.text ∧
      (Decimal.ofParts n.negative n.whole (n.fraction?.getD [])).toBinary f = x := by
  cases x with
  | nan | infinity => cases hx
  | finite negative m e h =>
    refine ⟨ofDecimal (Binary.shortest (.finite negative m e h) negative m e),
      wellFormed_ofDecimal _, text_ofDecimal _, ?_⟩
    rw [toBinary_ofDecimal, Binary.toBinary_shortest]

end Token.Numeral

end TestDeclaration
