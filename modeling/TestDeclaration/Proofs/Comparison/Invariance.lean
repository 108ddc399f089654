import TestDeclaration.Comparison
import TestDeclaration.Proofs.Value.Correspondence

/-!
# Comparisons and the identity of objects

Both comparisons see objects only through references: in corresponding heaps they give the same
answer on values that are the same up to paired objects.
-/

namespace TestDeclaration.Comparison

variable {kinds : TypeName → Prop} {R : Pairing} {h k : Heap}

/-- Values that are the same up to objects are the same number, if any. -/
theorem operand?_eq {v w : Value} (hv : v.Alike kinds R w) : v.operand? = w.operand? := by
  cases hv with
  | scalar | type | object => rfl

section Fields

variable {same same' : Value → Value → Answer} {fs fs' gs gs' : Fields}

private theorem pairwise_eq
    (hs : ∀ {v v' w w'}, v.Alike kinds R v' → w.Alike kinds R w' → same v w = same' v' w')
    (hf : Fields.Alike kinds R fs fs') (hg : Fields.Alike kinds R gs gs') :
    pairwise same fs gs = pairwise same' fs' gs' := by
  induction hf generalizing gs gs' with
  | nil => simp only [pairwise]
  | @cons f f' _ _ hf _ ih =>
    cases hg with
    | nil => simp only [pairwise]
    | @cons g g' _ _ hg hrest =>
      simp only [pairwise]
      rw [hf.1, hg.1, hs hf.2 hg.2, ih hrest]

private theorem byName_eq
    (hs : ∀ {v v' w w'}, v.Alike kinds R v' → w.Alike kinds R w' → same v w = same' v' w')
    (hf : Fields.Alike kinds R fs fs') (hg : Fields.Alike kinds R gs gs') :
    byName same gs fs = byName same' gs' fs' := by
  induction hf with
  | nil => rfl
  | @cons f f' _ _ hf _ ih =>
    simp only [byName]
    rw [hf.1, ih]
    have hget := hg.get? f'.1
    generalize gs.get? f'.1 = w at hget ⊢
    generalize gs'.get? f'.1 = w' at hget ⊢
    cases hget with
    | none => rfl
    | some hww => simp only [hs hf.2 hww]

end Fields

variable {v v' w w' : Value}

/-- Exact equality does not depend on the identity of objects. -/
theorem exactWithin_eq (hc : h.Corresponds kinds R k) (n : Nat) (hv : v.Alike kinds R v')
    (hw : w.Alike kinds R w') : exactWithin h n v w = exactWithin k n v' w' := by
  induction n generalizing v v' w w' with
  | zero => rfl
  | succ n ih =>
    cases hv with
    | scalar | type =>
      cases hw with
      | scalar | type | object => rfl
    | object _ ht ha =>
      cases hw with
      | scalar | type => rfl
      | object _ ht' ha' =>
        have hfields := hc.fields ha
        have hfields' := hc.fields ha'
        simp only [exactWithin]
        rw [hfields.length_eq, hfields'.length_eq, pairwise_eq ih hfields hfields', ht, ht']
        simp only [hc.eq_iff ha ha' ht ht']

/-- Structural equivalence does not depend on the identity of objects. -/
theorem equivalentWithin_eq (hc : h.Corresponds kinds R k) (n : Nat) (hv : v.Alike kinds R v')
    (hw : w.Alike kinds R w') : equivalentWithin h n v w = equivalentWithin k n v' w' := by
  induction n generalizing v v' w w' with
  | zero => rfl
  | succ n ih =>
    simp only [equivalentWithin]
    rw [operand?_eq hv, operand?_eq hw]
    split
    · rfl
    · cases hv with
      | scalar | type =>
        cases hw with
        | scalar | type | object => rfl
      | object _ ht ha =>
        cases hw with
        | scalar | type => rfl
        | object _ ht' ha' =>
          simp only [hc.eq_iff ha ha' ht ht', byName_eq ih (hc.fields ha) (hc.fields ha')]

end TestDeclaration.Comparison
