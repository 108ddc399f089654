import Mathlib.Data.List.Forall2
import TestDeclaration.Proofs.Comparison.Depth

/-!
# One step of a comparison

What each comparison asks of two values, given a relation that it asks of the values in their
fields. A comparison with some number of steps holds exactly if one step holds on top of the
comparison with one step less, on every heap. So a law of comparisons is a law of one step, and
neither cycles nor the number of steps matter to it.
-/

namespace TestDeclaration

open Number

/-! ### Scalars -/

private theorem Number.Binary.numEq_comm {f : Format} (a b : Binary f) : a.numEq b = b.numEq a := by
  cases a <;> cases b <;> simp only [numEq]
  · exact Bool.beq_comm
  · next p m e _ q n k _ =>
    rw [Bool.eq_iff_iff]
    simp only [Bool.and_eq_true, Bool.or_eq_true, beq_iff_eq]
    constructor
    · rintro ⟨⟨rfl, rfl⟩, rfl | rfl⟩ <;> simp
    · rintro ⟨⟨rfl, rfl⟩, rfl | rfl⟩ <;> simp

/-- Equal numbers of a format denote the same. -/
theorem Number.Extended.ofBinary_eq_of_numEq {f : Format} {a b : Binary f} (hab : a.numEq b) :
    ofBinary a = ofBinary b :=
  Binary.same_iff_ofBinary_eq.mp (Binary.same_iff.mpr (.inr hab))

private theorem Number.Binary.numEq_trans {f : Format} {a b c : Binary f} (hab : a.numEq b)
    (hbc : b.numEq c) : a.numEq c := by
  cases a <;> cases b <;> simp only [numEq, Bool.false_eq_true] at hab
  · rwa [eq_of_beq hab]
  · cases c <;> simp only [numEq, Bool.false_eq_true] at hbc ⊢
    simp only [Bool.and_eq_true, Bool.or_eq_true, beq_iff_eq] at hab hbc ⊢
    obtain ⟨⟨rfl, rfl⟩, hab⟩ := hab
    obtain ⟨⟨rfl, rfl⟩, hbc⟩ := hbc
    grind

namespace Scalar.Alike

variable {a b c : Scalar}

private theorem symm (hab : a.Alike b) : b.Alike a := by
  cases hab with
  | refl => exact .refl
  | float h => exact .float (by rwa [Binary.numEq_comm])
  | double h => exact .double (by rwa [Binary.numEq_comm])

/-- Sameness of scalars is transitive. -/
theorem trans (hab : a.Alike b) (hbc : b.Alike c) : a.Alike c := by
  cases hab with
  | refl => exact hbc
  | float h =>
    cases hbc with
    | refl => exact .float h
    | float h' => exact .float (Binary.numEq_trans h h')
  | double h =>
    cases hbc with
    | refl => exact .double h
    | double h' => exact .double (Binary.numEq_trans h h')

/-- Scalars that are the same are of one kind. -/
theorem primitive_eq (hab : a.Alike b) : a.primitive = b.primitive := by
  cases hab <;> rfl

/-- Equal scalars denote the same number, if any. -/
theorem number?_eq (hab : a.Alike b) : a.number? = b.number? := by
  cases hab with
  | refl => rfl
  | float h | double h => exact congrArg some (Extended.ofBinary_eq_of_numEq h)

end Scalar.Alike

/-- The test of scalars for sameness is symmetric. -/
theorem Scalar.same_comm (a b : Scalar) : a.same b = b.same a := by
  rw [Bool.eq_iff_iff, same_iff, same_iff]
  exact ⟨Alike.symm, Alike.symm⟩

namespace Comparison

variable {h : Heap} {v w : Value} {same : Value → Value → Answer} {fields fields' actual : Fields}

/-! ### Fields -/

/-- As many fields, with the same names and related values position by position. -/
def Fieldwise (R : Value → Value → Prop) : Fields → Fields → Prop :=
  List.Forall₂ fun field field' ↦ field.1 = field'.1 ∧ R field.2 field'.2

/-- Each field has a field of its name, the first one, whose value is related. -/
def Offers (R : Value → Value → Prop) (actual fields : Fields) : Prop :=
  ∀ name v, (name, v) ∈ fields → ∃ w, actual.get? name = some w ∧ R v w

/-- Lists that are related field by field have the same names. -/
theorem Fieldwise.names_eq {R : Value → Value → Prop} (hf : Fieldwise R fields fields') :
    fields.names = fields'.names := by
  induction hf with
  | nil => rfl
  | cons hfield _ ih =>
    rw [Fields.names, List.map_cons, hfield.1]
    exact congrArg _ ih

private theorem pairwise_eq_true_iff (hlen : fields.length = fields'.length) :
    pairwise same fields fields' = .ok true ↔
      Fieldwise (fun v w ↦ same v w = .ok true) fields fields' := by
  induction fields generalizing fields' with
  | nil =>
    obtain rfl := List.length_eq_zero_iff.mp hlen.symm
    exact ⟨fun _ ↦ .nil, fun _ ↦ rfl⟩
  | cons field rest ih =>
    obtain ⟨name, v⟩ := field
    obtain ⟨⟨name', w⟩, rest', rfl⟩ := List.exists_cons_of_length_eq_add_one hlen.symm
    rw [Fieldwise, List.forall₂_cons, pairwise]
    split
    · next hn => simp [hn]
    · next hn =>
      rw [and_iff_right (not_not.mp hn)]
      split
      · next hv => rw [and_iff_right hv, ih (Nat.succ.inj hlen), Fieldwise]
      · next hv => exact ⟨fun h ↦ absurd h hv, fun h ↦ h.1⟩

private theorem byName_eq_true_iff :
    byName same actual fields = .ok true ↔
      Offers (fun v w ↦ same v w = .ok true) actual fields := by
  induction fields with
  | nil => exact ⟨fun _ _ _ hm ↦ absurd hm List.not_mem_nil, fun _ ↦ rfl⟩
  | cons field rest ih =>
    obtain ⟨name, v⟩ := field
    have hcons : Offers (fun v w ↦ same v w = .ok true) actual ((name, v) :: rest) ↔
        (∃ w, actual.get? name = some w ∧ same v w = .ok true) ∧
          Offers (fun v w ↦ same v w = .ok true) actual rest := by
      simp only [Offers, List.mem_cons, Prod.mk.injEq]
      constructor
      · intro hall
        exact ⟨hall name v (.inl ⟨rfl, rfl⟩), fun n x hm ↦ hall n x (.inr hm)⟩
      · rintro ⟨hfirst, hrest⟩ n x (⟨rfl, rfl⟩ | hm)
        · exact hfirst
        · exact hrest n x hm
    rw [hcons, byName]
    split
    · next hn => simp [hn]
    · next w hw =>
      split
      · next hv => simp [hw, hv, ih]
      · next hv =>
        refine ⟨fun htrue ↦ absurd htrue hv, ?_⟩
        rintro ⟨⟨_, hw', htrue⟩, -⟩
        cases hw.symm.trans hw'
        exact htrue

/-! ### Values -/

/-- One step of exact equality: equal scalars, one type, one object, or objects of one type whose
fields are related position by position. -/
inductive ExactStep (h : Heap) (R : Value → Value → Prop) : Value → Value → Prop where
  | scalar {a b : Scalar} : a.Alike b → ExactStep h R (.scalar a) (.scalar b)
  | type {t : TypeName} : ExactStep h R (.type t) (.type t)
  | itself {r : Ref} : ExactStep h R (.object r) (.object r)
  | object {a b : Ref} : a.type = b.type → Fieldwise R (h.fields a) (h.fields b) →
      ExactStep h R (.object a) (.object b)

/-- One step of structural equivalence: one number, equal scalars, one type, one object, or an
object that offers related values for the fields of the other. -/
inductive EquivalentStep (h : Heap) (R : Value → Value → Prop) : Value → Value → Prop where
  | number {v w : Value} {n : Extended} : v.number? = some n → w.number? = some n →
      EquivalentStep h R v w
  | scalar {s : Scalar} : s.number? = none → EquivalentStep h R (.scalar s) (.scalar s)
  | type {t : TypeName} : EquivalentStep h R (.type t) (.type t)
  | itself {r : Ref} : EquivalentStep h R (.object r) (.object r)
  | object {a b : Ref} : Offers R (h.fields b) (h.fields a) →
      EquivalentStep h R (.object a) (.object b)

/-- Exact equality holds if one step holds on top of exact equality with one step less. -/
theorem exactWithin_eq_true_iff {steps : Nat} :
    exactWithin h (steps + 1) v w = .ok true ↔
      ExactStep h (fun v w ↦ exactWithin h steps v w = .ok true) v w := by
  match v, w with
  | .scalar a, .scalar b =>
    rw [exactWithin, Except.ok.injEq, Scalar.same_iff]
    exact ⟨.scalar, fun hab ↦ by cases hab; assumption⟩
  | .type a, .type b =>
    rw [exactWithin, Except.ok.injEq, beq_iff_eq]
    exact ⟨fun hab ↦ hab ▸ .type, fun hab ↦ by cases hab; rfl⟩
  | .object a, .object b =>
    rw [exactWithin]
    split
    · next hab => exact ⟨fun _ ↦ hab ▸ .itself, fun _ ↦ rfl⟩
    · next hab =>
      have hstep : ExactStep h (fun v w ↦ exactWithin h steps v w = .ok true)
          (.object a) (.object b) ↔ a.type = b.type ∧
            Fieldwise (fun v w ↦ exactWithin h steps v w = .ok true) (h.fields a) (h.fields b) := by
        constructor
        · rintro (_ | _ | _ | ⟨ht, hf⟩)
          · exact absurd rfl hab
          · exact ⟨ht, hf⟩
        · rintro ⟨ht, hf⟩
          exact .object ht hf
      rw [hstep]
      split
      · next ht => simp [ht]
      split
      · next hl =>
        refine ⟨fun htrue ↦ ?_, fun hf ↦ absurd (List.Forall₂.length_eq hf.2) hl⟩
        cases htrue
      · next ht hl => rw [pairwise_eq_true_iff (not_not.mp hl), and_iff_right (not_not.mp ht)]
  | .scalar _, .type _ | .scalar _, .object _ | .type _, .scalar _ | .type _, .object _
  | .object _, .scalar _ | .object _, .type _ =>
    constructor
    · intro htrue
      cases htrue
    · intro hstep
      cases hstep

/-- Structural equivalence holds if one step holds on top of structural equivalence with one step
less. -/
theorem equivalentWithin_eq_true_iff {steps : Nat} :
    equivalentWithin h (steps + 1) v w = .ok true ↔
      EquivalentStep h (fun v w ↦ equivalentWithin h steps v w = .ok true) v w := by
  rw [equivalentWithin_succ]
  split
  · next m n hm hn =>
    rw [Except.ok.injEq, beq_iff_eq]
    constructor
    · rintro rfl
      exact .number hm hn
    · rintro (⟨hm', hn'⟩ | hs | _ | _ | _)
      · exact Option.some.inj (hm.symm.trans (hm'.trans (hn'.symm.trans hn)))
      · rw [Value.number?, hs] at hm
        cases hm
      all_goals cases hm
  · next hno =>
    have hnumber : ∀ {n}, v.number? = some n → w.number? ≠ some n :=
      fun hm hn ↦ hno _ _ hm hn
    cases v <;> cases w
    case scalar.scalar a b =>
      dsimp only
      rw [Except.ok.injEq, Scalar.same_iff]
      constructor
      · rintro (_ | _ | _)
        · cases ha : a.number? with
          | none => exact .scalar ha
          | some n => exact absurd ha (hnumber ha)
        · exact absurd rfl (hno _ _ rfl)
        · exact absurd rfl (hno _ _ rfl)
      · rintro (⟨hm, hn⟩ | _ | _ | _ | _)
        · exact absurd hn (hnumber hm)
        · exact .refl
    case type.type a b =>
      dsimp only
      rw [Except.ok.injEq, beq_iff_eq]
      constructor
      · rintro rfl
        exact .type
      · rintro (⟨hm, -⟩ | _ | _ | _ | _)
        · cases hm
        · rfl
    case object.object a b =>
      dsimp only
      split
      · next hab => exact ⟨fun _ ↦ hab ▸ .itself, fun _ ↦ rfl⟩
      · next hab =>
        rw [byName_eq_true_iff]
        constructor
        · exact .object
        · rintro (⟨hm, -⟩ | _ | _ | _ | hf)
          · cases hm
          · exact absurd rfl hab
          · exact hf
    all_goals
      constructor
      · intro htrue
        cases htrue
      · rintro (⟨hm, hn⟩ | _ | _ | _ | _)
        exact absurd hn (hnumber hm)

end Comparison

end TestDeclaration
