import TestDeclaration.Proofs.Comparison.Step

/-!
# Laws of the comparisons

On every heap exact equality is an equivalence relation and structural equivalence is a preorder,
whatever cycles the heap has and however deep it is. An object equals itself without being looked
into, and one step is transitive on top of a transitive relation, also where only one of the
objects compared is looked into. Exact equality is the stronger of the two, unless an object has
two fields of one name: it goes by position, and structural equivalence by the first field of a
name.
-/

namespace TestDeclaration.Comparison

open Number

variable {h : Heap} {R : Value → Value → Prop} {u v w : Value} {steps : Nat}

/-! ### Exact equality -/

private theorem ExactStep.refl (h : Heap) (R : Value → Value → Prop) (v : Value) :
    ExactStep h R v v := by
  cases v with
  | scalar s => exact .scalar .refl
  | type t => exact .type
  | object r => exact .itself

/-- Values that pass a step of exact equality have the same type. -/
theorem ExactStep.typeName_eq (hvw : ExactStep h R v w) : v.typeName = w.typeName := by
  cases hvw with
  | scalar hab => exact congrArg TypeName.primitive hab.primitive_eq
  | type | itself => rfl
  | object ht _ => exact ht

private theorem Fieldwise.trans (hR : ∀ ⦃u v w⦄, R u v → R v w → R u w) {fs gs ks : Fields}
    (hfg : Fieldwise R fs gs) (hgk : Fieldwise R gs ks) : Fieldwise R fs ks := by
  induction hfg generalizing ks with
  | nil => exact hgk
  | cons hfirst _ ih =>
    cases hgk with
    | cons hsecond hrest =>
      exact .cons ⟨hfirst.1.trans hsecond.1, hR hfirst.2 hsecond.2⟩ (ih hrest)

private theorem ExactStep.trans (hR : ∀ ⦃u v w⦄, R u v → R v w → R u w) (huv : ExactStep h R u v)
    (hvw : ExactStep h R v w) : ExactStep h R u w := by
  cases huv with
  | type | itself => exact hvw
  | scalar hab =>
    cases hvw with
    | scalar hbc => exact .scalar (hab.trans hbc)
  | object ht hf =>
    cases hvw with
    | itself => exact .object ht hf
    | object ht' hf' => exact .object (ht.trans ht') (hf.trans hR hf')

private theorem exactWithin_trans (huv : exactWithin h steps u v = .ok true)
    (hvw : exactWithin h steps v w = .ok true) : exactWithin h steps u w = .ok true := by
  induction steps generalizing u v w with
  | zero => cases huv
  | succ steps ih =>
    rw [exactWithin_eq_true_iff] at huv hvw ⊢
    exact huv.trans (fun _ _ _ ↦ ih) hvw

private theorem pairwise_comm {same : Value → Value → Answer} (hs : ∀ v w, same v w = same w v)
    (fs gs : Fields) : pairwise same fs gs = pairwise same gs fs := by
  induction fs generalizing gs with
  | nil => cases gs <;> simp only [pairwise]
  | cons f fs ih =>
    cases gs with
    | nil => simp only [pairwise]
    | cons g gs => simp only [pairwise, hs f.2 g.2, ih gs, ne_comm (a := f.1)]

/-- Both orders give the same answer, also where the comparison fails. -/
theorem exactWithin_comm (h : Heap) (steps : Nat) (v w : Value) :
    exactWithin h steps v w = exactWithin h steps w v := by
  induction steps generalizing v w with
  | zero => rfl
  | succ steps ih =>
    match v, w with
    | .scalar a, .scalar b => simp only [exactWithin, Scalar.same_comm a b]
    | .type a, .type b => simp only [exactWithin, Bool.beq_comm (a := a)]
    | .object a, .object b =>
      simp only [exactWithin, pairwise_comm ih (h.fields a), ne_comm (a := a.type),
        ne_comm (a := (h.fields a).length), eq_comm (a := a)]
    | .scalar _, .type _ | .scalar _, .object _ | .type _, .scalar _ | .type _, .object _
    | .object _, .scalar _ | .object _, .type _ => rfl

/-- Exact equality is an equivalence relation on the values of every heap, and keeps types. -/
theorem exactlyEqual_equivalence (h : Heap) :
    Equivalence (fun v w ↦ exactlyEqual h v w = .ok true) ∧
    (∀ v w, exactlyEqual h v w = exactlyEqual h w v) ∧
    ∀ v w, exactlyEqual h v w = .ok true → v.typeName = w.typeName := by
  have hcomm : ∀ v w, exactlyEqual h v w = exactlyEqual h w v := exactWithin_comm h _
  refine ⟨⟨fun v ↦ ?_, fun hvw ↦ ?_, exactWithin_trans⟩, hcomm, fun v w hvw ↦ ?_⟩
  · exact exactWithin_eq_true_iff.mpr (.refl h _ v)
  · rwa [hcomm]
  · exact (exactWithin_eq_true_iff.mp hvw).typeName_eq

/-- Objects of one type: two that hold themselves, and two that hold the first of these. -/
def rings : Heap :=
  let ring (n : Nat) : Value := .object ⟨.declared "Ring", n⟩
  ⟨#[[("next", ring 0), ("next", ring 0)], [("next", ring 0), ("next", ring 0)],
    [("next", ring 0), ("next", ring 0)], [("next", ring 3), ("next", ring 3)]]⟩

/-- Rings that meet are equal; of rings that do not meet, neither order gives an answer. -/
theorem exactlyEqual_on_rings :
    let ring (n : Nat) : Value := .object ⟨.declared "Ring", n⟩
    exactlyEqual rings (ring 1) (ring 2) = .ok true ∧
      exactlyEqual rings (ring 3) (ring 0) = .error .tooDeep := by
  intro ring
  obtain ⟨hequal, hcomm, -⟩ := exactlyEqual_equivalence rings
  have hfirst : exactlyEqual rings (ring 1) (ring 0) = .ok true := by decide +kernel
  have hsecond : exactlyEqual rings (ring 0) (ring 2) = .ok true := by decide +kernel
  have hdeep : exactlyEqual rings (ring 0) (ring 3) = .error .tooDeep := by decide +kernel
  exact ⟨hequal.trans hfirst hsecond, (hcomm _ _).trans hdeep⟩

/-! ### Structural equivalence -/

private theorem EquivalentStep.refl (h : Heap) (R : Value → Value → Prop) (v : Value) :
    EquivalentStep h R v v := by
  cases v with
  | scalar s =>
    cases hs : s.number? with
    | none => exact .scalar hs
    | some n => exact .number hs hs
  | type t => exact .type
  | object r => exact .itself

/-- What offers the fields of an object that offers some fields also offers these. The first field
of each name is enough. -/
theorem Offers.trans (hR : ∀ ⦃u v w⦄, R u v → R v w → R u w) {fs gs ks : Fields}
    (hfg : Offers R gs fs) (hgk : Offers R ks gs) : Offers R ks fs := by
  intro name u hu
  obtain ⟨v, hv, huv⟩ := hfg name u hu
  obtain ⟨w, hw, hvw⟩ := hgk name v (Fields.mem_of_get? hv)
  exact ⟨w, hw, hR huv hvw⟩

private theorem EquivalentStep.trans (hR : ∀ ⦃u v w⦄, R u v → R v w → R u w)
    (huv : EquivalentStep h R u v) (hvw : EquivalentStep h R v w) : EquivalentStep h R u w := by
  cases huv with
  | scalar | type | itself => exact hvw
  | number hu hv =>
    cases hvw with
    | number hv' hw => exact .number hu (hw.trans (hv'.symm.trans hv))
    | scalar | type | itself => exact .number hu hv
    | object => cases hv
  | object hf =>
    cases hvw with
    | number hv _ => cases hv
    | itself => exact .object hf
    | object hf' => exact .object (hf.trans hR hf')

private theorem equivalentWithin_trans (huv : equivalentWithin h steps u v = .ok true)
    (hvw : equivalentWithin h steps v w = .ok true) : equivalentWithin h steps u w = .ok true := by
  induction steps generalizing u v w with
  | zero => cases huv
  | succ steps ih =>
    rw [equivalentWithin_eq_true_iff] at huv hvw ⊢
    exact huv.trans (fun _ _ _ ↦ ih) hvw

/-- Structural equivalence is a preorder on the values of every heap. -/
theorem equivalent_preorder (h : Heap) :
    (∀ v, equivalent h v v = .ok true) ∧
    ∀ u v w, equivalent h u v = .ok true → equivalent h v w = .ok true →
      equivalent h u w = .ok true :=
  ⟨fun v ↦ equivalentWithin_eq_true_iff.mpr (.refl h _ v), fun _ _ _ ↦ equivalentWithin_trans⟩

/-- Objects of three types that hold the first of them and numbers of three kinds. -/
def measures : Heap :=
  let first : Value := .object ⟨.declared "Count", 0⟩
  ⟨#[[("value", .int 1), ("base", first)],
    [("base", first), ("value", .scalar (.double (.ofRatio .double false 1 1))), ("unit", .int 2)],
    [("unit", .scalar (.uint 2)), ("value", .scalar (.byte 1)), ("base", first),
      ("value", .int 3)]]⟩

/-- Equivalence goes over kinds of numbers, types of objects, and further fields. -/
theorem equivalent_on_measures :
    equivalent measures (.object ⟨.declared "Count", 0⟩) (.object ⟨.declared "Scale", 2⟩) =
      .ok true := by
  have hfirst : equivalent measures (.object ⟨.declared "Count", 0⟩)
      (.object ⟨.declared "Length", 1⟩) = .ok true := by decide +kernel
  have hsecond : equivalent measures (.object ⟨.declared "Length", 1⟩)
      (.object ⟨.declared "Scale", 2⟩) = .ok true := by decide +kernel
  exact (equivalent_preorder measures).2 _ _ _ hfirst hsecond

/-! ### Exact equality implies structural equivalence -/

private theorem Fieldwise.exists_of_mem {fs gs : Fields} {name : String} (hf : Fieldwise R fs gs)
    (hv : (name, v) ∈ fs) : ∃ w, (name, w) ∈ gs ∧ R v w := by
  induction hf with
  | nil => cases hv
  | @cons f g fs gs hfg _ ih =>
    rcases List.mem_cons.mp hv with rfl | hv
    · obtain ⟨hname, hvw⟩ := hfg
      exact ⟨g.2, List.mem_cons.mpr (.inl (Prod.ext hname rfl)), hvw⟩
    · obtain ⟨w, hw, hvw⟩ := ih hv
      exact ⟨w, List.mem_cons_of_mem _ hw, hvw⟩

/-- Fields that are related position by position are found by their names, if no name repeats. -/
theorem Fieldwise.offers {fs gs : Fields} (hf : Fieldwise R fs gs) (hn : fs.names.Nodup) :
    Offers R gs fs := by
  intro name v hv
  obtain ⟨w, hw, hvw⟩ := hf.exists_of_mem hv
  exact ⟨w, Fields.get?_of_mem (hf.names_eq ▸ hn) hw, hvw⟩

/-- A step of exact equality is a step of structural equivalence, on top of relations of which the
one implies the other on what the expected value holds. -/
theorem ExactStep.equivalentStep {S : Value → Value → Prop} (hn : HasDistinctNames h v)
    (hRS : ∀ v' w', h.Holds v v' → R v' w' → S v' w') (hvw : ExactStep h R v w) :
    EquivalentStep h S v w := by
  cases hvw with
  | type => exact .type
  | itself => exact .itself
  | @scalar a b hab =>
    cases ha : a.number? with
    | some n => exact .number ha (hab.number?_eq.symm.trans ha)
    | none =>
      cases hab with
      | refl => exact .scalar ha
      | float | double => cases ha
  | object _ hf =>
    refine .object fun name v hv ↦ ?_
    obtain ⟨w, hw, hvw⟩ := hf.offers (hn _ .refl) name v hv
    exact ⟨w, hw, hRS v w (.intro hv) hvw⟩

/-- What is exactly equal is equivalent, if the expected value has no two fields of one name. -/
theorem equivalentWithin_of_exactWithin (hn : HasDistinctNames h v)
    (hvw : exactWithin h steps v w = .ok true) : equivalentWithin h steps v w = .ok true := by
  induction steps generalizing v w with
  | zero => cases hvw
  | succ steps ih =>
    rw [exactWithin_eq_true_iff] at hvw
    rw [equivalentWithin_eq_true_iff]
    exact hvw.equivalentStep hn fun _ _ hv ↦ ih (hn.of_holds hv)

end TestDeclaration.Comparison
