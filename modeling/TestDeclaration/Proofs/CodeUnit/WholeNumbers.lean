import Mathlib.Algebra.Order.Group.Unbundled.Int
import TestDeclaration.Proofs.CodeUnit.Faults

/-!
# Whole numbers in native code

Native code computes with whole numbers of any size and looks at the width of their type at the
end: what does not fit is an overflow, and no result is wrapped. A division by zero is found before
that, and a quotient is cut off toward zero. Translating a point checks both sums and makes a point
of its own, so that two translations go as far as one by the sums of their distances.
-/

namespace TestDeclaration

open Native Number

/-! ### Ranges -/

namespace Number

variable {a b : Int}

/-- The quotient of two ints is an int, unless the least int is divided by minus one. -/
theorem Range.contains_tdiv_iff (ha : Range.int.Contains a) (hb : b ≠ 0) :
    Range.int.Contains (a.tdiv b) ↔ ¬ (a = Range.int.least ∧ b = -1) := by
  have habs : (a.tdiv b).natAbs = a.natAbs / b.natAbs := Int.natAbs_tdiv a b
  simp only [Contains, int] at ha ⊢
  constructor
  · rintro hq ⟨rfl, rfl⟩
    simp at hq
  · intro hne
    rcases Nat.lt_or_ge b.natAbs 2 with hunit | hlarge
    · have hunit : b = 1 ∨ b = -1 := by omega
      rcases hunit with rfl | rfl
      · rwa [Int.tdiv_one]
      · rw [Int.tdiv_neg, Int.tdiv_one]
        omega
    · have hhalf : a.natAbs / b.natAbs ≤ a.natAbs / 2 := Nat.div_le_div_left hlarge (by decide)
      omega

/-- What a quotient that is cut off toward zero leaves is less than the divisor. -/
theorem abs_sub_tdiv_mul_lt (a : Int) (hb : b ≠ 0) : |a - a.tdiv b * b| < |b| := by
  rw [Int.mul_comm, ← Int.tmod_def, Int.abs_eq_natAbs, Int.abs_eq_natAbs, Int.natAbs_tmod]
  exact_mod_cast Nat.mod_lt _ (Int.natAbs_pos.mpr hb)

/-- What a quotient that is cut off toward zero leaves is zero or has the sign of the dividend. -/
theorem sub_tdiv_mul_eq_zero_or_sign (a b : Int) :
    a - a.tdiv b * b = 0 ∨ (a - a.tdiv b * b).sign = a.sign := by
  rw [Int.mul_comm, ← Int.tmod_def, Int.sign_tmod]
  by_cases hdvd : b ∣ a
  · exact .inl (Int.tmod_eq_zero_of_dvd hdvd)
  · exact .inr (if_neg hdvd)

end Number

/-! ### Calls through a library -/

namespace Library

variable {l : Library} {type : TypeName} {name : String} {args : List Value}

/-- The call of the method that a library resolves for the types of the arguments. -/
def call? (l : Library) (type : TypeName) (name : String) (target? : Option Value)
    (args : List Value) (h : Heap) : Option (Except Fault (Option Value) × Heap) :=
  (l.callable? type name (args.map Value.typeName)).map fun c ↦ c.invoke target? args h

/-- What the method that is resolved for some arguments ends with, whatever it is called on. It
leaves the heap alone. -/
def Computes (l : Library) (type : TypeName) (name : String) (args : List Value)
    (ends : Except Fault (Option Value) → Prop) : Prop :=
  ∀ target? h, ∃ result, l.call? type name target? args h = some (result, h) ∧ ends result

section Calls

variable {d : TypeDefinition} {m : Method} (hd : l.definition? type = some d)
  (hm : d.method? name (args.map Value.typeName) = some m)

include hd hm

/-- What is called is the method that the definition of the type has. -/
theorem call?_eq (target? : Option Value) (h : Heap) :
    l.call? type name target? args h = some (Callable.invoke ⟨type, m⟩ target? args h) := by
  rw [call?, callable?, hd, Option.bind_some, hm, Option.map_some, Option.map_some]

variable (hargs : argumentRefusal? m.parameters args = none)

include hargs

/-- A static method runs its code, whatever it is called on. -/
theorem call?_static (hreceiver : m.receiver = .static) (target? : Option Value) (h : Heap) :
    l.call? type name target? args h = some ((m.body none args).perform h) := by
  have hinvoke : Callable.invoke ⟨type, m⟩ target? args h = (m.body none args).perform h := by
    simp [Callable.invoke, Callable.refusal?, Callable.targetRefusal?, Callable.visibleTarget,
      hreceiver, hargs]
  rw [call?_eq hd hm, hinvoke]

/-- A method of instances runs its code on a value of its type. -/
theorem call?_target (hreceiver : m.receiver = .target) {v : Value} (hv : v.typeName = type)
    (h : Heap) : l.call? type name (some v) args h = some ((m.body (some v) args).perform h) := by
  have hinvoke : Callable.invoke ⟨type, m⟩ (some v) args h =
      (m.body (some v) args).perform h := by
    simp [Callable.invoke, Callable.refusal?, Callable.targetRefusal?, Callable.visibleTarget,
      hreceiver, hargs, hv]
  rw [call?_eq hd hm, hinvoke]

/-- A static method computes what its code ends with, if the code leaves the heap alone. -/
theorem computes_of_static (hreceiver : m.receiver = .static)
    {ends : Except Fault (Option Value) → Prop}
    (hbody : ∀ h, ∃ result, (m.body none args).perform h = (result, h) ∧ ends result) :
    l.Computes type name args ends := by
  intro target? h
  obtain ⟨result, hresult, hends⟩ := hbody h
  refine ⟨result, ?_, hends⟩
  rw [call?_static hd hm hargs hreceiver, hresult]

end Calls

end Library

/-! ### Results within a width -/

section Width

variable {α : Type} {range : Range} {toInt : α → Int} {value : α → Value}

/-- A computation whose exact result is some whole number ends with that number if it is in the
range of the type, and with an overflow otherwise. -/
inductive ExactOrOverflow (range : Range) (toInt : α → Int) (value : α → Value) (i : Int) :
    Except Fault (Option Value) → Prop where
  | exact {n : α} : range.Contains i → toInt n = i →
      ExactOrOverflow range toInt value i (.ok (some (value n)))
  | overflow : ¬ range.Contains i → ExactOrOverflow range toInt value i (.error .overflow)

/-- A computation on ints ends with its exact result, or with an overflow. -/
abbrev ExactInt : Int → Except Fault (Option Value) → Prop :=
  ExactOrOverflow .int Int32.toInt .int

/-- A computation on longs ends with its exact result, or with an overflow. -/
abbrev ExactLong : Int → Except Fault (Option Value) → Prop :=
  ExactOrOverflow .long Int64.toInt fun n ↦ .scalar (.long n)

/-- A check of the width is exact if the words of the width are the numbers of the range. -/
theorem exactOrOverflow_of_word? {ofInt : Int → α} (hw : range.Words ofInt toInt) (i : Int)
    (h : Heap) : ∃ result,
      (do return some (value (← orRaise (range.word? ofInt i) .overflow)) :
        Native (Option Value)).perform h = (result, h) ∧
      ExactOrOverflow range toInt value i result := by
  cases hword : range.word? ofInt i with
  | none => exact ⟨_, rfl, .overflow (Range.word?_eq_none_iff.mp hword)⟩
  | some n =>
    have hn : toInt n = i := hw.word?_eq_some_iff.mp hword
    exact ⟨_, rfl, .exact (hn ▸ hw.contains_toInt n) hn⟩

end Width

namespace Samples

variable {l : Library}

/-! ### Division -/

/-- How the division of two ints ends: zero divides nothing, the least int has no quotient by minus
one, and another quotient is cut off toward zero. -/
inductive Divides (a b : Int32) : Except Fault (Option Value) → Prop where
  | divideByZero : b.toInt = 0 → Divides a b (.error .divideByZero)
  | overflow : a.toInt = Range.int.least → b.toInt = -1 → Divides a b (.error .overflow)
  | truncated {q : Int32} : b.toInt ≠ 0 → ¬ (a.toInt = Range.int.least ∧ b.toInt = -1) →
      |a.toInt - q.toInt * b.toInt| < |b.toInt| →
      (a.toInt - q.toInt * b.toInt = 0 ∨ (a.toInt - q.toInt * b.toInt).sign = a.toInt.sign) →
      Divides a b (.ok (some (.int q)))

private theorem divides_divide (a b : Int32) (h : Heap) :
    ∃ result, (divide none [.int a, .int b]).perform h = (result, h) ∧ Divides a b result := by
  by_cases hb : b = 0
  · subst hb
    exact ⟨.error .divideByZero, rfl, .divideByZero rfl⟩
  · have hdivide : (divide none [.int a, .int b]).perform h =
        (Core.checkedInt (a.toInt.tdiv b.toInt)).perform h := by
      have hreads : divide none [.int a, .int b] = (do
          let divisor ← (pure b : Native Int32)
          if divisor = 0 then raise .divideByZero
          Core.checkedInt (a.toInt.tdiv divisor.toInt)) := rfl
      rw [hreads, pure_bind, if_neg hb]
    have hb' : b.toInt ≠ 0 := fun h0 ↦ hb (Int32.toInt_inj.mp h0)
    obtain ⟨result, hresult, hexact⟩ :=
      exactOrOverflow_of_word? Range.words_int (a.toInt.tdiv b.toInt) h
    refine ⟨result, hdivide.trans hresult, ?_⟩
    have hrange := Range.contains_tdiv_iff (Range.words_int.contains_toInt a) hb'
    cases hexact with
    | @exact q hcontains hq =>
      refine .truncated hb' (hrange.mp hcontains) ?_ ?_
      · rw [hq]
        exact abs_sub_tdiv_mul_lt _ hb'
      · rw [hq]
        exact sub_tdiv_mul_eq_zero_or_sign _ _
    | overflow hout =>
      obtain ⟨hleast, hone⟩ := not_not.mp (mt hrange.mpr hout)
      exact .overflow hleast hone

/-! ### Points -/

/-- An object is a point with some coordinates. -/
structure PointAt (h : Heap) (r : Ref) (x y : Int32) : Prop where
  type : r.type = point
  x : h.get? r "x" = some (.int x)
  y : h.get? r "y" = some (.int y)

/-- How a translation ends whose exact sums are two whole numbers: with a new point that has these
as its coordinates, or with an overflow. -/
inductive Translates (h : Heap) (i j : Int) : Except Fault (Option Value) → Heap → Prop where
  | made {r : Ref} {x y : Int32} {k : Heap} : x.toInt = i → y.toInt = j → r.type = point →
      h.objects.size ≤ r.address → k.fields r = [("x", .int x), ("y", .int y)] →
      Translates h i j (.ok (some (.object r))) k
  | overflow {k : Heap} : ¬ (Range.int.Contains i ∧ Range.int.Contains j) →
      Translates h i j (.error .overflow) k

variable {h k : Heap} {r s : Ref} {x y : Int32}

private theorem pointAt_of_fields (ht : r.type = point)
    (hf : h.fields r = [("x", .int x), ("y", .int y)]) : PointAt h r x y := by
  refine ⟨ht, ?_, ?_⟩ <;>
  · rw [Heap.get?, hf]
    rfl

private theorem PointAt.lt_size (hr : PointAt h r x y) : r.address < h.objects.size := by
  refine Heap.lt_size_of_fields_ne_nil fun hf ↦ ?_
  have hx := hr.x
  rw [Heap.get?, hf] at hx
  cases hx

private theorem PointAt.of_keeps (hr : PointAt h r x y) (hk : h.Keeps k) : PointAt k r x y where
  type := hr.type
  x := by rw [Heap.get?, hk.fields_eq hr.lt_size]; exact hr.x
  y := by rw [Heap.get?, hk.fields_eq hr.lt_size]; exact hr.y

/-- A translation keeps all objects and ends by its sums. -/
theorem translates_translate (hr : PointAt h r x y) (a b : Int32) : ∃ result k,
    (translate (some (.object r)) [.int a, .int b]).perform h = (result, k) ∧ h.Keeps k ∧
      Translates h (x.toInt + a.toInt) (y.toInt + b.toInt) result k := by
  have ha : (intArgument [.int a, .int b] 0).perform h = (.ok a, h) := rfl
  have hb : (intArgument [.int a, .int b] 1).perform h = (.ok b, h) := rfl
  simp only [translate, perform_bind, perform_coordinates hr.x hr.y, ha, perform_orRaise]
  cases hx : int? (x.toInt + a.toInt) with
  | none => exact ⟨_, _, rfl, .refl _ h, .overflow fun hin ↦ Range.word?_eq_none_iff.mp hx hin.1⟩
  | some x' =>
    simp only [Option.elim_some, hb]
    cases hy : int? (y.toInt + b.toInt) with
    | none => exact ⟨_, _, rfl, .refl _ h, .overflow fun hin ↦ Range.word?_eq_none_iff.mp hy hin.2⟩
    | some y' =>
      refine ⟨_, _, rfl, Heap.keepsExcept_alloc _ h point _, ?_⟩
      exact .made (Range.words_int.word?_eq_some_iff.mp hx)
        (Range.words_int.word?_eq_some_iff.mp hy) rfl (Nat.le_refl _)
        (Heap.fields_alloc h point _)

/-- Points with the same coordinates are exactly equal. -/
theorem exactlyEqual_of_fields (ht : r.type = s.type)
    (hr : h.fields r = [("x", .int x), ("y", .int y)])
    (hs : h.fields s = [("x", .int x), ("y", .int y)]) :
    Comparison.exactlyEqual h (.object r) (.object s) = .ok true := by
  simp [Comparison.exactlyEqual, Comparison.maxDepth, Comparison.exactWithin, ht, hr, hs,
    Comparison.pairwise, Value.int, Scalar.same]

/-- A point is translated by the method that a library resolves. -/
theorem exists_call?_translate (hpoint : l.definition? point = some pointType)
    (hr : PointAt h r x y) (a b : Int32) : ∃ result k,
    l.call? point "Translate" (some (.object r)) [.int a, .int b] h = some (result, k) ∧
      h.Keeps k ∧ Translates h (x.toInt + a.toInt) (y.toInt + b.toInt) result k := by
  obtain ⟨result, k, hresult, hk⟩ := translates_translate hr a b
  refine ⟨result, k, ?_, hk⟩
  have ht : (Value.object r).typeName = point := hr.type
  rw [Library.call?_target hpoint rfl rfl rfl ht]
  exact congrArg some hresult

/-- A translation that makes a point makes one with its sums as coordinates. -/
theorem exists_of_call?_translate (hpoint : l.definition? point = some pointType)
    (hr : PointAt h r x y) {a b : Int32} {v : Value} (hv : l.call? point "Translate"
      (some (.object r)) [.int a, .int b] h = some (.ok (some v), k)) :
    h.Keeps k ∧ ∃ s x' y', v = .object s ∧ s.type = point ∧
      k.fields s = [("x", .int x'), ("y", .int y')] ∧
      x'.toInt = x.toInt + a.toInt ∧ y'.toInt = y.toInt + b.toInt := by
  obtain ⟨result, k', hresult, hk, hends⟩ := exists_call?_translate hpoint hr a b
  obtain ⟨rfl, rfl⟩ : result = .ok (some v) ∧ k' = k := by
    simpa using hresult.symm.trans hv
  cases hends with
  | made hx hy ht _ hf => exact ⟨hk, _, _, _, rfl, ht, hf, hx, hy⟩

/-- Two translations that end with a point go as far as one by the sums of their distances. -/
theorem exists_translate_add (hpoint : l.definition? point = some pointType)
    (hr : PointAt h r x y) {a b c d e f : Int32} (he : e.toInt = a.toInt + c.toInt)
    (hf : f.toInt = b.toInt + d.toInt) {v w : Value} {m : Heap}
    (hv : l.call? point "Translate" (some (.object r)) [.int a, .int b] h =
      some (.ok (some v), k))
    (hw : l.call? point "Translate" (some v) [.int c, .int d] k = some (.ok (some w), m)) :
    ∃ u n, l.call? point "Translate" (some (.object r)) [.int e, .int f] m =
      some (.ok (some u), n) ∧ Comparison.exactlyEqual n w u = .ok true := by
  obtain ⟨hk, s₁, x₁, y₁, rfl, ht₁, hf₁, hx₁, hy₁⟩ := exists_of_call?_translate hpoint hr hv
  obtain ⟨hm, s₂, x₂, y₂, rfl, ht₂, hf₂, hx₂, hy₂⟩ :=
    exists_of_call?_translate hpoint (pointAt_of_fields ht₁ hf₁) hw
  obtain ⟨result, n, hu, hn, hends⟩ :=
    exists_call?_translate hpoint (hr.of_keeps (hk.trans hm)) e f
  have hx : x.toInt + e.toInt = x₂.toInt := by omega
  have hy : y.toInt + f.toInt = y₂.toInt := by omega
  rw [hx, hy] at hends
  cases hends with
  | overflow hout =>
    have hin := Range.words_int.contains_toInt
    exact absurd ⟨hin x₂, hin y₂⟩ hout
  | @made s₃ x₃ y₃ _ hx₃ hy₃ ht₃ _ hf₃ =>
    obtain rfl := Int32.toInt_inj.mp hx₃
    obtain rfl := Int32.toInt_inj.mp hy₃
    refine ⟨_, n, hu, exactlyEqual_of_fields (ht₂.trans ht₃.symm) ?_ hf₃⟩
    rw [hn.fields_eq (pointAt_of_fields ht₂ hf₂).lt_size, hf₂]

/-! ### The methods of the units -/

/-- Native code on whole numbers ends with the exact result or with an overflow, and translations of
points add up. -/
theorem whole_numbers_exact
    (hmath : l.definition? (.declared "Math") = some Core.mathType)
    (hcalculator : l.definition? calculator = some calculatorType)
    (hpoint : l.definition? point = some pointType) :
    (∀ a b : Int32,
      l.Computes calculator "Add" [.int a, .int b] (ExactInt (a.toInt + b.toInt)) ∧
      l.Computes calculator "Subtract" [.int a, .int b] (ExactInt (a.toInt - b.toInt)) ∧
      l.Computes calculator "Multiply" [.int a, .int b] (ExactInt (a.toInt * b.toInt)) ∧
      l.Computes calculator "Divide" [.int a, .int b] (Divides a b)) ∧
    (∀ a b : Int64, l.Computes calculator "Add" [.scalar (.long a), .scalar (.long b)]
      (ExactLong (a.toInt + b.toInt))) ∧
    (∀ a : Int32, l.Computes (.declared "Math") "Abs" [.int a] (ExactInt |a.toInt|)) ∧
    (∀ x y h, ∃ c r k, l.constructor? point [Core.int, Core.int] = some c ∧
      c.construct [.int x, .int y] h = (.ok (.object r), k) ∧ PointAt k r x y) ∧
    (∀ h r x y, PointAt h r x y → ∀ a b, ∃ result k,
      l.call? point "Translate" (some (.object r)) [.int a, .int b] h = some (result, k) ∧
      h.Keeps k ∧ Translates h (x.toInt + a.toInt) (y.toInt + b.toInt) result k) ∧
    ∀ h r x y, PointAt h r x y → ∀ a b c d e f : Int32, e.toInt = a.toInt + c.toInt →
      f.toInt = b.toInt + d.toInt → ∀ v k w m,
      l.call? point "Translate" (some (.object r)) [.int a, .int b] h = some (.ok (some v), k) →
      l.call? point "Translate" (some v) [.int c, .int d] k = some (.ok (some w), m) →
      ∃ u n, l.call? point "Translate" (some (.object r)) [.int e, .int f] m =
        some (.ok (some u), n) ∧ Comparison.exactlyEqual n w u = .ok true := by
  refine ⟨fun a b ↦ ⟨?_, ?_, ?_, ?_⟩, fun a b ↦ ?_, fun a ↦ ?_, fun x y h ↦ ?_, ?_, ?_⟩
  · exact Library.computes_of_static hcalculator rfl rfl rfl
      (exactOrOverflow_of_word? Range.words_int _)
  · exact Library.computes_of_static hcalculator rfl rfl rfl
      (exactOrOverflow_of_word? Range.words_int _)
  · exact Library.computes_of_static hcalculator rfl rfl rfl
      (exactOrOverflow_of_word? Range.words_int _)
  · exact Library.computes_of_static hcalculator rfl rfl rfl (divides_divide a b)
  · exact Library.computes_of_static hcalculator rfl rfl rfl
      (exactOrOverflow_of_word? Range.words_long _)
  · rw [Int.abs_eq_natAbs]
    exact Library.computes_of_static hmath rfl rfl rfl
      (exactOrOverflow_of_word? Range.words_int _)
  · have hc : l.constructor? point [Core.int, Core.int] =
        some ⟨point, [Core.int, Core.int], newPoint⟩ := by
      rw [Library.constructor?, hpoint]
      rfl
    exact ⟨_, _, _, hc, rfl, pointAt_of_fields rfl (Heap.fields_alloc h point _)⟩
  · exact fun h r x y hr ↦ exists_call?_translate hpoint hr
  · exact fun h r x y hr a b c d e f he hf v k w m ↦ exists_translate_add hpoint hr he hf

/-- With the core unit and the sample unit loaded, minus seven is divided by two toward zero, and a
point close to the end of the range is translated twice and once to equal points. -/
theorem whole_numbers_exact_near_the_end :
    let l : Library := ⟨[Core.unit, unit]⟩
    let h : Heap := ⟨#[[("x", .int 2147483600), ("y", .int (-5))]]⟩
    let k := (h.alloc point [("x", .int 2147483640), ("y", .int 0)]).2
    let m := (k.alloc point [("x", .int 2147483590), ("y", .int 2)]).2
    l.Computes calculator "Divide" [.int (-7), .int 2] (Divides (-7) 2) ∧
    Divides (-7) 2 (.ok (some (.int (-3)))) ∧
    ∃ u n, l.call? point "Translate" (some (.object ⟨point, 0⟩)) [.int (-10), .int 7] m =
      some (.ok (some u), n) ∧ Comparison.exactlyEqual n (.object ⟨point, 2⟩) u = .ok true := by
  intro l h k m
  obtain ⟨hints, -, -, -, -, hadd⟩ := whole_numbers_exact (l := l) rfl rfl rfl
  refine ⟨(hints (-7) 2).2.2.2, ?_, ?_⟩
  · exact .truncated (by decide) (by decide) (by decide) (.inr (by decide))
  have hr : PointAt h ⟨point, 0⟩ 2147483600 (-5) := ⟨rfl, rfl, rfl⟩
  exact hadd h _ _ _ hr 40 5 (-50) 2 (-10) 7 (by decide) (by decide) (.object ⟨point, 1⟩) k
    (.object ⟨point, 2⟩) m rfl rfl

end Samples

end TestDeclaration
