import TestDeclaration.Proofs.Number.Reading
import TestDeclaration.Proofs.Token.Lines

/-!
# Number literals are read exactly

A number literal is a numeral, perhaps with the letter of a kind behind it. The lexer reads all of
it as one token, with the number that it writes, if this number is in the range of the kind. If it
is not, there is no token at all, and neither is there one for a numeral with a second point.
-/

namespace TestDeclaration

open Number Text Token

namespace NumberKind

/-- The letter that asks for a kind. -/
def letter : NumberKind → Char
  | .int => 'i'
  | .uint => 'u'
  | .long => 'l'
  | .short => 's'
  | .float => 'f'
  | .double => 'd'
  | .byte => 'b'

private theorem ofLetter?_letter (kind : NumberKind) : ofLetter? kind.letter = some kind := by
  cases kind <;> rfl

end NumberKind

/-! ### What a numeral writes -/

/-- A whole number is a word of some width exactly if it lies in the range of this width. -/
theorem Number.Range.exists_word_iff {α : Type} (r : Range) (ofInt : Int → α) (make : α → Scalar)
    (i : Int) : (∃ v, (r.word? ofInt i).map make = some v) ↔ r.Contains i := by
  unfold word?
  split <;> simp [*]

namespace Token

namespace Numeral

/-- The whole number that the sign and the digits before the point write. -/
def integer (n : Numeral) : Int :=
  if n.negative then -(ofDigits n.whole : Int) else ofDigits n.whole

/-- The kind of a literal. The letter behind the numeral asks for it, and without a letter a point
does. -/
def kind (n : Numeral) (letter? : Option NumberKind) : NumberKind :=
  letter?.getD (if n.hasPoint then .float else .int)

/-- The text of a literal: a numeral, and perhaps the letter of a kind. -/
def literal (n : Numeral) (letter? : Option NumberKind) : List Char :=
  n.text ++ (letter?.map NumberKind.letter).toList

/-- Whether a numeral can be a literal of some kind. Whole numbers have no point, those without a
sign have no sign, not even in front of a zero, and all lie in the range of their kind. Numbers with
a point do not round to an infinity. -/
def Fits (n : Numeral) : NumberKind → Prop
  | .int => n.fraction? = none ∧ Range.int.Contains n.integer
  | .long => n.fraction? = none ∧ Range.long.Contains n.integer
  | .short => n.fraction? = none ∧ Range.short.Contains n.integer
  | .uint => n.negative = false ∧ n.fraction? = none ∧ Range.uint.Contains n.integer
  | .byte => n.negative = false ∧ n.fraction? = none ∧ Range.byte.Contains n.integer
  | .float => ∃ x, Binary.ofText? .single n.text = some x ∧ x.isFinite
  | .double => ∃ x, Binary.ofText? .double n.text = some x ∧ x.isFinite

/-- The scalar of some kind that a numeral writes: the whole number itself, or the number that its
text is rounded to. -/
inductive Writes (n : Numeral) : NumberKind → Scalar → Prop where
  | int {i : Int32} : i.toInt = n.integer → Writes n .int (.int i)
  | long {i : Int64} : i.toInt = n.integer → Writes n .long (.long i)
  | short {i : Int16} : i.toInt = n.integer → Writes n .short (.short i)
  | uint {k : UInt32} : (k.toNat : Int) = n.integer → Writes n .uint (.uint k)
  | byte {k : UInt8} : (k.toNat : Int) = n.integer → Writes n .byte (.byte k)
  | float {x : Binary .single} : Binary.ofText? .single n.text = some x →
      Writes n .float (.float x)
  | double {x : Binary .double} : Binary.ofText? .double n.text = some x →
      Writes n .double (.double x)

variable {n : Numeral} {kind : NumberKind} {v : Scalar} {rest : List Char}

/-- The text of a numeral is read as the decimal number of its parts. -/
theorem decimal_text (h : n.WellFormed) : Decimal.ofText? n.text =
    some (.ofParts n.negative n.whole (n.fraction?.getD [])) := by
  obtain ⟨negative, whole, fraction?⟩ := n
  obtain ⟨hne, hw, hf⟩ := h
  have hsign : ∀ others, Decimal.splitSign ((if negative then ['-'] else []) ++ (whole ++ others)) =
      (negative, whole ++ others) := by
    intro others
    obtain ⟨w, ws, rfl⟩ := List.exists_cons_of_ne_nil hne
    have hdigit : w.isDigit := hw w List.mem_cons_self
    cases negative with
    | true => rfl
    | false =>
      simp only [Bool.false_eq_true, if_false, List.nil_append, List.cons_append]
      unfold Decimal.splitSign
      split
      · next heq =>
        cases heq
        exact absurd hdigit (by decide)
      · next heq =>
        cases heq
        exact absurd hdigit (by decide)
      · rfl
  unfold Decimal.ofText?
  rw [text, List.append_assoc, hsign]
  have hend : ∀ c ∈ ([] : List Char).head?, ¬ c.isDigit := by simp
  cases fraction? with
  | none =>
    simp only [takeWhile_isDigit_append hw hend, dropWhile_isDigit_append hw hend, hne, false_and,
      if_false]
    simp [Decimal.exponent?]
  | some fraction =>
    have hpoint : ∀ c ∈ ('.' :: fraction).head?, ¬ c.isDigit := by
      rintro c ⟨⟩
      decide
    have hf' : ∀ c ∈ fraction, c.isDigit := hf
    have htake := takeWhile_isDigit_append hf' hend
    have hdrop := dropWhile_isDigit_append hf' hend
    rw [List.append_nil] at htake hdrop
    simp only [takeWhile_isDigit_append hw hpoint, dropWhile_isDigit_append hw hpoint, htake,
      hdrop, hne, false_and, if_false]
    simp [Decimal.exponent?]

/-- The text of a numeral is read as the binary number nearest to the decimal of its parts. -/
theorem ofText?_text {f : Format} (hf : 0 < f.precision) (h : n.WellFormed) :
    Binary.ofText? f n.text =
      some ((Decimal.ofParts n.negative n.whole (n.fraction?.getD [])).toBinary f) := by
  obtain ⟨c, cs, hcs, hstart⟩ := h.exists_cons_text_append []
  rw [List.append_nil] at hcs
  have hword : ∀ {letter : Char} {letters : List Char}, ¬ letter.isDigit →
      (letter = '-' → ¬ letters.head?.any Char.isDigit) → n.text ≠ letter :: letters := by
    intro letter letters hletter hminus heq
    rw [hcs] at heq
    cases heq
    have hdigit := hstart []
    rw [List.append_nil] at hdigit
    exact hdigit.elim hletter fun hd ↦ hminus hd.1 hd.2
  have hnan : n.text ≠ "NaN".toList := hword (by decide) (by decide)
  have hinf : n.text ≠ "inf".toList := hword (by decide) (by decide)
  have hneg : n.text ≠ "-inf".toList := hword (by decide) (by decide)
  have hexponent : (Decimal.ofParts n.negative n.whole (n.fraction?.getD [])).exponent ≤ 0 :=
    Int.neg_nonpos_of_nonneg (Int.natCast_nonneg _)
  rw [Binary.ofText?, if_neg hnan, if_neg hinf, if_neg hneg, decimal_text h, Option.map_some,
    Decimal.toBinary_within hf hexponent]

/-- A finite number is the scalar of the number that the text of a numeral is read as. -/
theorem finite?_toBinary_eq_some_iff {f : Format} {make : Binary f → Scalar} (hf : 0 < f.precision)
    (h : n.WellFormed) :
    NumberKind.finite? make
        ((Decimal.ofParts n.negative n.whole (n.fraction?.getD [])).toBinary f) = some v ↔
      ∃ x, (Binary.ofText? f n.text = some x ∧ x.isFinite) ∧ make x = v := by
  rw [ofText?_text hf h, NumberKind.finite?]
  split
  · next hx =>
    constructor
    · intro hv
      exact ⟨_, ⟨rfl, hx⟩, Option.some.inj hv⟩
    · rintro ⟨_, ⟨⟨⟩, -⟩, rfl⟩
      rfl
  · next hx =>
    constructor
    · intro hv
      cases hv
    · rintro ⟨_, ⟨⟨⟩, hx'⟩, rfl⟩
      exact absurd hx' hx

private theorem exists_finite?_toBinary_iff {f : Format} {make : Binary f → Scalar}
    (hf : 0 < f.precision)
    (h : n.WellFormed) :
    (∃ v, NumberKind.finite? make
        ((Decimal.ofParts n.negative n.whole (n.fraction?.getD [])).toBinary f) = some v) ↔
      ∃ x, Binary.ofText? f n.text = some x ∧ x.isFinite := by
  simp only [finite?_toBinary_eq_some_iff hf h]
  constructor
  · rintro ⟨_, x, hx, -⟩
    exact ⟨x, hx⟩
  · rintro ⟨x, hx⟩
    exact ⟨_, x, hx, rfl⟩

/-- A numeral is read as the scalar that it writes. -/
theorem writes_of_scalar? (h : n.WellFormed)
    (hv : kind.scalar? n.negative n.whole (n.fraction?.getD []) = some v) : n.Writes kind v := by
  cases kind with
  | int =>
    obtain ⟨i, hi, rfl⟩ := Option.map_eq_some_iff.mp hv
    exact .int (Range.words_int.word?_eq_some_iff.mp hi)
  | uint =>
    obtain ⟨k, hk, rfl⟩ := Option.map_eq_some_iff.mp hv
    exact .uint (Range.words_uint.word?_eq_some_iff.mp hk)
  | long =>
    obtain ⟨i, hi, rfl⟩ := Option.map_eq_some_iff.mp hv
    exact .long (Range.words_long.word?_eq_some_iff.mp hi)
  | short =>
    obtain ⟨i, hi, rfl⟩ := Option.map_eq_some_iff.mp hv
    exact .short (Range.words_short.word?_eq_some_iff.mp hi)
  | byte =>
    obtain ⟨k, hk, rfl⟩ := Option.map_eq_some_iff.mp hv
    exact .byte (Range.words_byte.word?_eq_some_iff.mp hk)
  | float =>
    obtain ⟨x, ⟨hx, -⟩, rfl⟩ := (finite?_toBinary_eq_some_iff (by decide) h).mp hv
    exact .float hx
  | double =>
    obtain ⟨x, ⟨hx, -⟩, rfl⟩ := (finite?_toBinary_eq_some_iff (by decide) h).mp hv
    exact .double hx

/-- A numeral fits a kind if the letter of the kind rules nothing out and the kind has a scalar for
it. -/
theorem fits_iff (h : n.WellFormed) : n.Fits kind ↔
    objection? kind n.negative n.hasPoint = none ∧
      ∃ v, kind.scalar? n.negative n.whole (n.fraction?.getD []) = some v := by
  have hwhole : ∀ problem : LexProblem, (if n.hasPoint then some problem else none) = none ↔
      n.fraction? = none := by
    intro problem
    unfold hasPoint
    cases n.fraction? <;> simp
  have hunsigned : ∀ problem problem' : LexProblem,
      (if n.negative then some problem else if n.hasPoint then some problem' else none) = none ↔
        n.negative = false ∧ n.fraction? = none := by
    intro problem problem'
    rw [← hwhole problem']
    cases n.negative <;> simp
  cases kind with
  | int => exact and_congr (hwhole _).symm (Range.int.exists_word_iff _ _ _).symm
  | long => exact and_congr (hwhole _).symm (Range.long.exists_word_iff _ _ _).symm
  | short => exact and_congr (hwhole _).symm (Range.short.exists_word_iff _ _ _).symm
  | uint =>
    rw [Fits, ← and_assoc]
    exact and_congr (hunsigned _ _).symm (Range.uint.exists_word_iff _ _ _).symm
  | byte =>
    rw [Fits, ← and_assoc]
    exact and_congr (hunsigned _ _).symm (Range.byte.exists_word_iff _ _ _).symm
  | float => exact ((and_iff_right rfl).trans (exists_finite?_toBinary_iff (by decide) h)).symm
  | double => exact ((and_iff_right rfl).trans (exists_finite?_toBinary_iff (by decide) h)).symm

end Numeral

/-! ### Literals -/

/-- What follows a numeral that has no letter: no more of it, and no letter. -/
def EndsNumeral (rest : List Char) : Prop :=
  ∀ c ∈ rest.head?, ¬ c.isDigit ∧ c ≠ '.' ∧ NumberKind.ofLetter? c = none

/-- The lexer takes a text as one literal, with some value, and goes on behind it. -/
def EmitsLiteral (p : Position) (lexeme rest : List Char) (v : Scalar) : Prop :=
  let others := scanFrom (p.advance lexeme) rest
  scanFrom p (lexeme ++ rest) =
    ⟨⟨.literal v, p, byteLength lexeme⟩ :: others.tokens, others.error?⟩

variable {n : Numeral} {letter? : Option NumberKind} {v : Scalar} {p : Position}
  {suffix rest : List Char}

/-- A literal is read as a number of its kind, unless its letter rules that out. -/
theorem number_literal (h : n.WellFormed) (hr : letter? = none → EndsNumeral rest) :
    number (n.text ++ ((letter?.map NumberKind.letter).toList ++ rest)) =
      match objection? (n.kind letter?) n.negative n.hasPoint with
      | some problem => .error (problem, n.text.length)
      | none => n.finish (n.kind letter?) (n.literal letter?).length := by
  cases letter? with
  | none =>
    have hnone : (rest.head?.bind NumberKind.ofLetter?) = none := by
      rw [Option.bind_eq_none_iff]
      exact fun c hc ↦ (hr rfl c hc).2.2
    have hobjection : objection? (n.kind none) n.negative n.hasPoint = none := by
      unfold Numeral.kind
      cases n.hasPoint <;> rfl
    have hend : ∀ c ∈ rest.head?, ¬ c.isDigit ∧ c ≠ '.' := fun c hc ↦
      ⟨(hr rfl c hc).1, (hr rfl c hc).2.1⟩
    simp only [Option.map_none, Option.toList_none, List.nil_append, Numeral.literal,
      List.append_nil, Numeral.number_append h hend, hnone, hobjection]
    rfl
  | some asked =>
    have hletter := NumberKind.ofLetter?_letter asked
    have hend : ∀ c ∈ (asked.letter :: rest).head?, ¬ c.isDigit ∧ c ≠ '.' := by
      rintro c ⟨⟩
      exact Numeral.not_isDigit_of_ofLetter? hletter
    simp only [Option.map_some, Option.toList_some, List.singleton_append, Numeral.literal,
      List.length_append, List.length_singleton, Numeral.number_append h hend, List.head?_cons,
      Option.bind_some, hletter]
    rfl

/-- A literal that is read where no layout starts is the first token. -/
theorem emitsLiteral_of_one {c : Char} {cs : List Char}
    (hzero : layoutLength false (c :: cs ++ rest) = 0)
    (hone : one c (cs ++ rest) = .ok (.literal v, (c :: cs).length)) :
    EmitsLiteral p (c :: cs) rest v := by
  have hdrop : (c :: cs ++ rest).drop (layoutLength false (c :: cs ++ rest)) =
      c :: (cs ++ rest) := by
    rw [hzero]
    rfl
  have hscan := scanFrom_of_one (p := p) hdrop hone
  rw [hzero, ← List.cons_append, List.take_left, List.drop_left] at hscan
  exact hscan

/-- Where a number is read, its literal is the first token. -/
theorem emitsLiteral_of_number (h : n.WellFormed)
    (hn : number (n.text ++ (suffix ++ rest)) = .ok (v, (n.text ++ suffix).length)) :
    EmitsLiteral p (n.text ++ suffix) rest v := by
  obtain ⟨c, cs, hcs, hone⟩ := exists_one_numeral h suffix
  obtain ⟨hzero, hone⟩ := hone rest
  rw [hn, hcs] at hone
  rw [hcs]
  exact emitsLiteral_of_one hzero hone

/-- Where no number can be read, there is no token. -/
theorem exists_error_of_number (h : n.WellFormed) {problem : LexProblem} {taken : Nat}
    (hn : number (n.text ++ (suffix ++ rest)) = .error (problem, taken)) :
    ∃ e, scanFrom p (n.text ++ suffix ++ rest) = ⟨[], some e⟩ := by
  obtain ⟨c, cs, hcs, hone⟩ := exists_one_numeral h suffix
  obtain ⟨hzero, hone⟩ := hone rest
  rw [hn] at hone
  have hdrop : (c :: cs ++ rest).drop (layoutLength false (c :: cs ++ rest)) =
      c :: (cs ++ rest) := by
    rw [hzero]
    rfl
  rw [hcs]
  exact ⟨_, scanFrom_of_error hdrop hone⟩

/-- What fits its kind is emitted, with the scalar that it writes. -/
theorem exists_emitsLiteral (h : n.WellFormed) (hr : letter? = none → EndsNumeral rest)
    (hfits : n.Fits (n.kind letter?)) :
    ∃ v, EmitsLiteral p (n.literal letter?) rest v ∧ n.Writes (n.kind letter?) v := by
  obtain ⟨hobjection, v, hv⟩ := (Numeral.fits_iff h).mp hfits
  refine ⟨v, emitsLiteral_of_number h ?_, Numeral.writes_of_scalar? h hv⟩
  rw [number_literal h hr, hobjection]
  simp only [Numeral.finish, hv]
  rfl

/-- What does not fit its kind is an error. -/
theorem exists_error_of_not_fits (h : n.WellFormed) (hr : letter? = none → EndsNumeral rest)
    (hfits : ¬ n.Fits (n.kind letter?)) :
    ∃ e, scanFrom p (n.literal letter? ++ rest) = ⟨[], some e⟩ := by
  rw [Numeral.fits_iff h, not_and_or, not_exists] at hfits
  have hnumber := number_literal h hr
  rcases hobjection : objection? (n.kind letter?) n.negative n.hasPoint with _ | problem
  · have hnone : (n.kind letter?).scalar? n.negative n.whole (n.fraction?.getD []) = none :=
      Option.eq_none_iff_forall_ne_some.mpr (hfits.resolve_left (not_not_intro hobjection))
    rw [hobjection] at hnumber
    simp only [Numeral.finish, hnone] at hnumber
    exact exists_error_of_number h hnumber
  · rw [hobjection] at hnumber
    exact exists_error_of_number h hnumber

/-- A number literal is one token exactly if it fits its kind, and its value is the one that it
writes. -/
theorem scan_number_literal (h : n.WellFormed) (hr : letter? = none → EndsNumeral rest)
    (p : Position) :
    ((∃ v, EmitsLiteral p (n.literal letter?) rest v) ↔ n.Fits (n.kind letter?)) ∧
    (∀ v, EmitsLiteral p (n.literal letter?) rest v → n.Writes (n.kind letter?) v) ∧
    (¬ n.Fits (n.kind letter?) →
      ∃ e, scanFrom p (n.literal letter? ++ rest) = ⟨[], some e⟩) ∧
    (n.hasPoint → ∀ behind, ∃ e, scanFrom p (n.text ++ '.' :: behind) = ⟨[], some e⟩) := by
  have hfits : ∀ v, EmitsLiteral p (n.literal letter?) rest v → n.Fits (n.kind letter?) := by
    intro v hv
    by_contra hno
    obtain ⟨e, he⟩ := exists_error_of_not_fits (p := p) h hr hno
    rw [EmitsLiteral, he] at hv
    cases hv
  refine ⟨⟨fun ⟨v, hv⟩ ↦ hfits v hv, fun hyes ↦ ?_⟩, ?_, exists_error_of_not_fits h hr, ?_⟩
  · obtain ⟨v, hv, -⟩ := exists_emitsLiteral (p := p) h hr hyes
    exact ⟨v, hv⟩
  · intro v hv
    obtain ⟨v', hv', hwrites⟩ := exists_emitsLiteral (p := p) h hr (hfits v hv)
    rw [EmitsLiteral] at hv hv'
    rw [hv] at hv'
    cases hv'
    exact hwrites
  · intro hp behind
    have hnumber : number (n.text ++ ([] ++ '.' :: behind)) =
        .error (.secondPoint, n.text.length) := Numeral.number_append_point h hp behind
    have hscan := exists_error_of_number (p := p) h hnumber
    rwa [List.append_nil] at hscan

/-- The least int, with a zero in front of it and a parenthesis behind it. -/
theorem least_int_literal :
    let n : Numeral := ⟨true, "02147483648".toList, none⟩
    n.WellFormed ∧ EndsNumeral [')'] ∧
      ∃ v, EmitsLiteral Position.start "-02147483648".toList [')'] v ∧ n.Writes .int v := by
  intro n
  have h : n.WellFormed :=
    ⟨List.cons_ne_nil _ _, List.all_eq_true.mp (by decide), List.forall_mem_nil _⟩
  have hr : EndsNumeral [')'] := by
    rintro c ⟨⟩
    decide
  have hend : (none : Option NumberKind) = none → EndsNumeral [')'] := fun _ ↦ hr
  obtain ⟨hemits, hwrites, -⟩ := scan_number_literal h hend Position.start
  obtain ⟨v, hv⟩ := hemits.mpr ⟨rfl, by decide⟩
  exact ⟨h, hr, v, hv, hwrites v hv⟩

end Token

end TestDeclaration
