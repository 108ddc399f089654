import TestDeclaration.Execution
import TestDeclaration.Proofs.Comparison.Invariance
import TestDeclaration.Proofs.Plan.Ownership

/-!
# Verdicts and the identity of objects

A verdict sees objects only through references: in corresponding heaps an expectation accepts the
same outcomes, up to paired objects. The object of a fault is made on both sides and paired.
-/

namespace TestDeclaration

variable (kinds : TypeName → Prop) (R : Pairing)

/-- Two outcomes are the same up to paired objects. -/
inductive Outcome.Alike : Outcome → Outcome → Prop where
  | returned {v w : Value} : v.Alike kinds R w → Alike (.returned v) (.returned w)
  | thrown {f g : Fault} : f.Alike kinds R g → Alike (.thrown f) (.thrown g)

variable {kinds R} {S : Nat → Prop} {h k : Heap}

/-- Calls that end the same have the same outcome. -/
theorem EndsAlike.outcome {p q : Except Fault (Option Value)}
    (hpq : EndsAlike kinds R (Option.Rel (Value.Alike kinds R)) p q) :
    Outcome.Alike kinds R (.ofResult p) (.ofResult q) := by
  cases hpq with
  | ok hvw =>
    cases hvw with
    | none => exact .thrown ⟨rfl, rfl, .nil⟩
    | some hvw => exact .returned hvw
  | error hfg => exact .thrown hfg

/-- A criterion accepts the same values in corresponding heaps. -/
theorem Criterion.Inside.accepts_eq {c : Criterion} (hc : c.Inside kinds S)
    (hS : ∀ a, S a → R a a) (hh : h.Corresponds kinds R k) {v w : Value}
    (hv : v.Alike kinds R w) : c.accepts h v = c.accepts k w := by
  cases c with
  | exactly expected =>
    have hexpected : expected.Alike kinds R expected := Value.Inside.alike hc hS
    unfold Criterion.accepts Comparison.exactlyEqual
    simp only [Comparison.exactWithin_eq hh _ hexpected hv]
  | equivalentTo expected =>
    have hexpected : expected.Alike kinds R expected := Value.Inside.alike hc hS
    unfold Criterion.accepts Comparison.equivalent
    simp only [Comparison.equivalentWithin_eq hh _ hexpected hv]
  | ofType t =>
    unfold Criterion.accepts
    simp only [hv.typeName_eq]

/-- An expectation accepts the same outcomes in corresponding heaps. -/
theorem Expectation.accepts_eq {e : Expectation} (he : e.criterion.Inside kinds S)
    (hS : ∀ a, S a → R a a) (hh : h.Corresponds kinds R k) {o o' : Outcome}
    (ho : o.Alike kinds R o') : e.accepts h o = e.accepts k o' := by
  obtain ⟨channel, criterion⟩ := e
  cases ho with
  | returned hv =>
    cases channel with
    | returned => exact he.accepts_eq hS hh hv
    | thrown => rfl
  | @thrown f g hf =>
    cases channel with
    | returned => rfl
    | thrown =>
      -- The types of faults need not be of the kinds, so nothing is asked of types here.
      have hany : ∀ t, kinds t → (fun _ ↦ True) t := fun _ _ ↦ trivial
      obtain ⟨-, hh'⟩ := (hh.mono_kinds hany).alloc (hf.mono hany fun _ _ ↦ id).fields f.type
      have hfault : Value.Alike (fun _ ↦ True) (R.add h.objects.size k.objects.size)
          (.object (f.alloc h).1) (.object (g.alloc k).1) :=
        .object trivial hf.type (.inr ⟨rfl, rfl⟩)
      have hcriterion : criterion.Inside (fun _ ↦ True) S := by
        cases criterion with
        | exactly | equivalentTo => exact Value.Alike.mono hany (fun _ _ ↦ id) he
        | ofType => trivial
      show criterion.accepts (f.alloc h).2 (.object (f.alloc h).1) =
        criterion.accepts (g.alloc k).2 (.object (g.alloc k).1)
      apply hcriterion.accepts_eq (fun a ha ↦ .inl (hS a ha)) ?_ hfault
      unfold Fault.alloc
      rw [← hf.type]
      exact hh'

end TestDeclaration
