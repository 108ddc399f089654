/-!
# Whole numbers in decimal

The value of a string of digits, the digits of a value, and the whole numbers of a fixed range.
-/

namespace TestDeclaration.Number

/-- The number that decimal digits write, most significant digit first. -/
def ofDigits (digits : List Char) : Nat := Nat.ofDigitChars 10 digits 0

/-- The decimal digits of a number, without leading zeros. -/
def digits (n : Nat) : List Char := Nat.toDigits 10 n

/-- How many decimal digits a number has; zero has one. -/
def digitCount (n : Nat) : Nat := (digits n).length

/-- The digits of a number write it. -/
@[simp] theorem ofDigits_digits (n : Nat) : ofDigits (digits n) = n :=
  Nat.ofDigitChars_ten_toDigits

/-- Digits are decimal digits. -/
theorem isDigit_of_mem_digits {n : Nat} {c : Char} (h : c ∈ digits n) : c.isDigit :=
  Nat.isDigit_of_mem_toDigits (by decide) (by decide) h

/-- Every number has a digit. -/
theorem digits_ne_nil (n : Nat) : digits n ≠ [] := Nat.toDigits_ne_nil

/-- An integer in decimal: a minus sign if it is below zero, then its digits. -/
def integerText (i : Int) : List Char :=
  if i < 0 then '-' :: digits i.natAbs else digits i.natAbs

/-- A range of whole numbers, both ends included. -/
structure Range where
  least : Int
  greatest : Int
  deriving DecidableEq, Repr

namespace Range

/-- Whether a whole number lies in the range. -/
def Contains (r : Range) (i : Int) : Prop := r.least ≤ i ∧ i ≤ r.greatest

instance (r : Range) (i : Int) : Decidable (r.Contains i) :=
  inferInstanceAs (Decidable (_ ∧ _))

/-- The numbers of eight bits without a sign. -/
def byte : Range := ⟨0, 255⟩

/-- The numbers of sixteen bits with a sign. -/
def short : Range := ⟨-32768, 32767⟩

/-- The numbers of thirty-two bits with a sign. -/
def int : Range := ⟨-2147483648, 2147483647⟩

/-- The numbers of thirty-two bits without a sign. -/
def uint : Range := ⟨0, 4294967295⟩

/-- The numbers of sixty-four bits with a sign. -/
def long : Range := ⟨-9223372036854775808, 9223372036854775807⟩

/-- The whole number as a word, if it is in the range of the words. -/
def word? {α : Type} (r : Range) (ofInt : Int → α) (i : Int) : Option α :=
  if r.Contains i then some (ofInt i) else none

/-- The words of some width are the numbers of a range. -/
structure Words {α : Type} (r : Range) (ofInt : Int → α) (toInt : α → Int) : Prop where
  contains_toInt : ∀ n, r.Contains (toInt n)
  ofInt_toInt : ∀ n, ofInt (toInt n) = n
  toInt_ofInt : ∀ i, r.Contains i → toInt (ofInt i) = i

namespace Words

variable {α : Type} {r : Range} {ofInt : Int → α} {toInt : α → Int} {i : Int} {n : α}

/-- A whole number is the word that has its value. -/
theorem word?_eq_some_iff (hw : r.Words ofInt toInt) : r.word? ofInt i = some n ↔ toInt n = i := by
  unfold word?
  constructor
  · intro h
    by_cases hc : r.Contains i
    · rw [if_pos hc, Option.some.injEq] at h
      rw [← h, hw.toInt_ofInt i hc]
    · rw [if_neg hc] at h
      cases h
  · rintro rfl
    rw [if_pos (hw.contains_toInt n), hw.ofInt_toInt]

/-- The value of a word gives it back. -/
theorem word?_toInt (hw : r.Words ofInt toInt) (n : α) : r.word? ofInt (toInt n) = some n :=
  hw.word?_eq_some_iff.mpr rfl

end Words

/-- A whole number out of the range is no word. -/
theorem word?_eq_none_iff {α : Type} {r : Range} {ofInt : Int → α} {i : Int} :
    r.word? ofInt i = none ↔ ¬ r.Contains i := by
  unfold word?
  split <;> simp_all

/-- Words without a sign are the numbers up to a greatest one. -/
theorem words_unsigned {α : Type} {ofNat : Nat → α} {toNat : α → Nat} {greatest : Nat}
    (hle : ∀ n, toNat n ≤ greatest) (hofNat : ∀ n, ofNat (toNat n) = n)
    (htoNat : ∀ k ≤ greatest, toNat (ofNat k) = k) :
    Words ⟨0, greatest⟩ (fun i ↦ ofNat i.toNat) fun n ↦ toNat n where
  contains_toInt n := ⟨Int.natCast_nonneg _, Int.ofNat_le.mpr (hle n)⟩
  ofInt_toInt n := by rw [Int.toNat_natCast, hofNat]
  toInt_ofInt i := by
    rintro ⟨hleast, hgreatest⟩
    rw [htoNat _ (Int.toNat_le.mpr hgreatest), Int.toNat_of_nonneg hleast]

/-- Words of eight bits without a sign. -/
theorem words_byte : byte.Words (fun i ↦ UInt8.ofNat i.toNat) fun n ↦ n.toNat :=
  words_unsigned (fun n ↦ Nat.le_of_lt_succ n.toNat_lt) (fun _ ↦ UInt8.ofNat_toNat)
    fun _ hk ↦ UInt8.toNat_ofNat_of_lt' (Nat.lt_succ_of_le hk)

/-- Words of sixteen bits with a sign. -/
theorem words_short : short.Words Int16.ofInt Int16.toInt where
  contains_toInt n := ⟨n.le_toInt, Int.le_sub_one_of_lt n.toInt_lt⟩
  ofInt_toInt := Int16.ofInt_toInt
  toInt_ofInt _ hi := Int16.toInt_ofInt_of_le hi.1 (Int.lt_add_one_of_le hi.2)

/-- Words of thirty-two bits with a sign. -/
theorem words_int : int.Words Int32.ofInt Int32.toInt where
  contains_toInt n := ⟨n.le_toInt, Int.le_sub_one_of_lt n.toInt_lt⟩
  ofInt_toInt := Int32.ofInt_toInt
  toInt_ofInt _ hi := Int32.toInt_ofInt_of_le hi.1 (Int.lt_add_one_of_le hi.2)

/-- Words of thirty-two bits without a sign. -/
theorem words_uint : uint.Words (fun i ↦ UInt32.ofNat i.toNat) fun n ↦ n.toNat :=
  words_unsigned (fun n ↦ Nat.le_of_lt_succ n.toNat_lt) (fun _ ↦ UInt32.ofNat_toNat)
    fun _ hk ↦ UInt32.toNat_ofNat_of_lt' (Nat.lt_succ_of_le hk)

/-- Words of sixty-four bits with a sign. -/
theorem words_long : long.Words Int64.ofInt Int64.toInt where
  contains_toInt n := ⟨n.le_toInt, Int.le_sub_one_of_lt n.toInt_lt⟩
  ofInt_toInt := Int64.ofInt_toInt
  toInt_ofInt _ hi := Int64.toInt_ofInt_of_le hi.1 (Int.lt_add_one_of_le hi.2)

end Range

/-- The whole number as a word of thirty-two bits, if it is one. -/
def int? : Int → Option Int32 := Range.int.word? Int32.ofInt

/-- The whole number as a word of sixty-four bits, if it is one. -/
def long? : Int → Option Int64 := Range.long.word? Int64.ofInt

/-- The whole number as a word of sixteen bits, if it is one. -/
def short? : Int → Option Int16 := Range.short.word? Int16.ofInt

/-- The whole number as an unsigned word of thirty-two bits, if it is one. -/
def uint? : Int → Option UInt32 := Range.uint.word? fun i ↦ UInt32.ofNat i.toNat

/-- The whole number as an unsigned word of eight bits, if it is one. -/
def byte? : Int → Option UInt8 := Range.byte.word? fun i ↦ UInt8.ofNat i.toNat

end TestDeclaration.Number
