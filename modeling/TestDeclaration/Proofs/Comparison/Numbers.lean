import TestDeclaration.Comparison
import TestDeclaration.Proofs.Number.Exact

/-!
# Numbers across kinds

Structural equivalence compares numbers of all kinds as integers and doubles, with a conversion
that rounds and one that saturates. It answers what comparing the denoted numbers would answer:
singles convert without rounding, and the integers that can occur have at most sixty-four bits,
so that no end of the wider range is among them.
-/

namespace TestDeclaration

open Number

/-! ### What numbers denote -/

/-- What a number denotes; the other scalars denote no number. -/
def Scalar.number? : Scalar → Option Extended
  | .byte n => some (.ofInt n.toNat)
  | .short n => some (.ofInt n.toInt)
  | .int n => some (.ofInt n.toInt)
  | .uint n => some (.ofInt n.toNat)
  | .long n => some (.ofInt n.toInt)
  | .float x => some (.ofBinary x)
  | .double x => some (.ofBinary x)
  | .bool _ | .char _ | .string _ => none

/-- What a number denotes; other values denote no number. -/
def Value.number? : Value → Option Extended
  | .scalar s => s.number?
  | .type _ | .object _ => none

namespace Number.Operand

/-- What an operand denotes. -/
def denoted : Operand → Extended
  | .integer i => .ofInt i
  | .real x => .ofBinary x

/-- An integer is strictly inside the range that doubles convert to. -/
def IsInside : Operand → Prop
  | .integer i => Range.wide.least < i ∧ i < Range.wide.greatest
  | .real _ => True

/-- Operands are the same exactly if they denote the same. -/
theorem same_iff {a b : Operand} (ha : a.IsInside) (hb : b.IsInside) :
    a.same b ↔ a.denoted = b.denoted := by
  cases a with
  | integer i =>
    cases b with
    | integer j => rw [same, beq_iff_eq, denoted, denoted, Extended.ofInt_inj]
    | real y => exact Binary.toInt_eq_iff ha.1 ha.2
  | real x =>
    cases b with
    | integer j => exact (Binary.toInt_eq_iff hb.1 hb.2).trans eq_comm
    | real y => exact Binary.same_iff_ofBinary_eq

end Number.Operand

/-- The operand of a number denotes what the number denotes. -/
theorem Scalar.number?_eq (s : Scalar) : s.number? = s.operand?.map Operand.denoted := by
  cases s with
  | float x => rw [number?, operand?, Option.map_some, Operand.denoted, Binary.ofBinary_convert]
  | _ => rfl

/-- The integers of all kinds have at most sixty-four bits. -/
theorem Scalar.isInside_of_operand? {s : Scalar} {a : Operand} (h : s.operand? = some a) :
    a.IsInside := by
  cases s with
  | bool | char | string => cases h
  | float | double =>
    cases h
    trivial
  | byte n =>
    cases h
    have hhigh := n.toNat_lt
    constructor <;> simp only [Range.wide] <;> omega
  | short n =>
    cases h
    have hlow := n.le_toInt
    have hhigh := n.toInt_lt
    constructor <;> simp only [Range.wide] <;> omega
  | int n =>
    cases h
    have hlow := n.le_toInt
    have hhigh := n.toInt_lt
    constructor <;> simp only [Range.wide] <;> omega
  | uint n =>
    cases h
    have hhigh := n.toNat_lt
    constructor <;> simp only [Range.wide] <;> omega
  | long n =>
    cases h
    have hlow := n.le_toInt
    have hhigh := n.toInt_lt
    constructor <;> simp only [Range.wide] <;> omega

namespace Value

variable {v w : Value} {a b : Operand}

private theorem number?_eq (v : Value) : v.number? = v.operand?.map Operand.denoted := by
  cases v with
  | scalar s => exact s.number?_eq
  | type | object => rfl

private theorem isInside_of_operand? (h : v.operand? = some a) : a.IsInside := by
  cases v with
  | scalar s => exact Scalar.isInside_of_operand? h
  | type | object => cases h

/-- Comparing the operands of two numbers is comparing what the numbers denote. -/
theorem same_eq_of_operand? (ha : v.operand? = some a) (hb : w.operand? = some b) :
    a.same b = (a.denoted == b.denoted) := by
  rw [Bool.eq_iff_iff, Operand.same_iff (isInside_of_operand? ha) (isInside_of_operand? hb),
    beq_iff_eq]

end Value

namespace Comparison

variable {h : Heap}

/-- One step of structural equivalence, with numbers compared by what they denote. -/
theorem equivalentWithin_succ (h : Heap) (steps : Nat) (expected actual : Value) :
    equivalentWithin h (steps + 1) expected actual =
      match expected.number?, actual.number? with
      | some a, some b => .ok (a == b)
      | _, _ =>
        match expected, actual with
        | .scalar a, .scalar b => .ok (a.same b)
        | .type a, .type b => .ok (a == b)
        | .object a, .object b =>
          if a = b then .ok true
          else byName (equivalentWithin h steps) (h.fields b) (h.fields a)
        | _, _ => .ok false := by
  rw [Value.number?_eq, Value.number?_eq]
  simp only [equivalentWithin]
  cases ha : expected.operand? with
  | none => rfl
  | some a =>
    cases hb : actual.operand? with
    | none => rfl
    | some b => exact congrArg Except.ok (Value.same_eq_of_operand? ha hb)

/-- Numbers are equivalent if they denote the same. -/
theorem equivalent_of_number? {v w : Value} {a b : Extended} (ha : v.number? = some a)
    (hb : w.number? = some b) : equivalent h v w = .ok (decide (a = b)) := by
  rw [equivalent, equivalentWithin_succ, ha, hb]
  rfl

/-- An integer is at no end of the range that doubles convert to. -/
theorem equivalent_eq_false_of_toInt {v w : Value} {i : Int} {x : Binary .double}
    (hi : v.operand? = some (.integer i)) (hx : w.operand? = some (.real x))
    (hend : x.toInt .wide = Range.wide.least ∨ x.toInt .wide = Range.wide.greatest) :
    equivalent h v w = .ok false ∧ equivalent h w v = .ok false := by
  obtain ⟨hlow, hhigh⟩ := Value.isInside_of_operand? hi
  have hne : x.toInt .wide ≠ i := by omega
  have hdiffer : Extended.ofInt i ≠ Extended.ofBinary x := by
    intro heq
    have hsame := (Binary.toInt_eq_iff hlow hhigh).mpr heq
    rw [Bool.and_eq_true, beq_iff_eq] at hsame
    exact hne hsame.2
  have hv : v.number? = some (.ofInt i) := by rw [Value.number?_eq, hi, Option.map_some]; rfl
  have hw : w.number? = some (.ofBinary x) := by rw [Value.number?_eq, hx, Option.map_some]; rfl
  rw [equivalent_of_number? hv hw, equivalent_of_number? hw hv, decide_eq_false hdiffer,
    decide_eq_false hdiffer.symm]
  exact ⟨rfl, rfl⟩

/-- Numbers of any kinds are equivalent exactly if they denote the same number. -/
theorem equivalent_numbers (h : Heap) :
    (∀ (v w : Value) (a b : Extended), v.number? = some a → w.number? = some b →
      equivalent h v w = .ok (decide (a = b))) ∧
    (∀ (i : Int64) (x : Binary .double),
      equivalent h (.scalar (.long i)) (.scalar (.double x)) = .ok true ↔
        ∃ negative m e canonical, x = .finite negative m e canonical ∧
          (i.toInt : ℚ) = signedValue negative m e) ∧
    (∀ (a b : Bool) (m n : Nat) (e k : Int) (hm : Format.single.Canonical m e)
        (hn : Format.double.Canonical n k),
      equivalent h (.scalar (.float (.finite a m e hm))) (.scalar (.double (.finite b n k hn))) =
        .ok (decide (signedValue a m e = signedValue b n k))) ∧
    ∀ (v w : Value) (i : Int) (x : Binary .double), v.operand? = some (.integer i) →
      w.operand? = some (.real x) →
      x.toInt .wide = Range.wide.least ∨ x.toInt .wide = Range.wide.greatest →
      equivalent h v w = .ok false ∧ equivalent h w v = .ok false := by
  refine ⟨fun v w a b ha hb ↦ equivalent_of_number? ha hb, fun i x ↦ ?_, ?_,
    fun v w i x ↦ equivalent_eq_false_of_toInt⟩
  · rw [equivalent_of_number? (a := .ofInt i.toInt) (b := .ofBinary x) rfl rfl, Except.ok.injEq,
      decide_eq_true_eq]
    constructor
    · intro heq
      cases x with
      | nan | infinity => cases heq
      | finite negative m e canonical =>
        exact ⟨_, _, _, canonical, rfl, Extended.ofInt_eq_ofBinary_finite_iff.mp heq⟩
    · rintro ⟨negative, m, e, canonical, rfl, heq⟩
      exact Extended.ofInt_eq_ofBinary_finite_iff.mpr heq
  · intro a b m n e k hm hn
    rw [equivalent_of_number? (a := .ofBinary (.finite a m e hm))
      (b := .ofBinary (.finite b n k hn)) rfl rfl]
    exact congrArg Except.ok (decide_eq_decide.mpr Extended.ofBinary_finite_eq_iff)

/-- The greatest long is not the double next to it, the long past `2 ^ 53` is not the double that
rounds it, and no long is the double at the end of the wide range. A zero is the other zero. -/
theorem equivalent_at_limits :
    let h : Heap := ⟨#[]⟩
    let long (n : Int64) : Value := .scalar (.long n)
    let double (a : Bool) (m : Nat) (e : Int) (c : Format.double.Canonical m e) : Value :=
      .scalar (.double (.finite a m e c))
    equivalent h (long 9223372036854775807) (double false (2 ^ 52) 11 (by decide)) = .ok false ∧
    equivalent h (long 9007199254740993) (double false (2 ^ 52) 1 (by decide)) = .ok false ∧
    equivalent h (long 0) (double true 0 (-1074) (by decide)) = .ok true ∧
    equivalent h (long 1) (double false (2 ^ 52) 75 (by decide)) = .ok false := by
  intro h long double
  obtain ⟨hnumbers, -, -, hend⟩ := equivalent_numbers h
  refine ⟨?_, ?_, ?_, (hend _ _ _ _ rfl rfl (.inr (by decide +kernel))).1⟩
  all_goals
    rw [hnumbers _ _ _ _ rfl rfl]
    decide +kernel

end Comparison

end TestDeclaration
