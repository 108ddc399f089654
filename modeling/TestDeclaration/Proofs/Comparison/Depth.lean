import TestDeclaration.Proofs.Comparison.Numbers
import TestDeclaration.Proofs.Value.Reachable

/-!
# The depth limit of comparisons

What the two comparisons mean without a limit and without looking at identities, as relations on
values. Within its limit each comparison decides its relation on acyclic values, and it reaches
the limit only along chains of fields in both values.
-/

namespace TestDeclaration

open Number

/-- Scalars of one kind with one value. Numbers with a fraction are compared as numbers. -/
inductive Scalar.Alike : Scalar → Scalar → Prop where
  | refl {s : Scalar} : Alike s s
  | float {a b : Binary .single} : a.numEq b → Alike (.float a) (.float b)
  | double {a b : Binary .double} : a.numEq b → Alike (.double a) (.double b)

/-- The test of scalars for sameness decides their relation. -/
theorem Scalar.same_iff {a b : Scalar} : a.same b ↔ a.Alike b := by
  unfold same
  split
  · next x y =>
    rw [Binary.same_iff]
    constructor
    · rintro (rfl | h)
      · exact .refl
      · exact .float h
    · rintro (_ | h)
      · exact .inl rfl
      · exact .inr h
  · next x y =>
    rw [Binary.same_iff]
    constructor
    · rintro (rfl | h)
      · exact .refl
      · exact .double h
    · rintro (_ | _ | h)
      · exact .inl rfl
      · exact .inr h
  · next hf hd =>
    rw [beq_iff_eq]
    constructor
    · rintro rfl
      exact .refl
    · rintro (_ | _ | _)
      · rfl
      · exact (hf _ _ rfl rfl).elim
      · exact (hd _ _ rfl rfl).elim

namespace Comparison

variable (h : Heap)

mutual

/-- Values of one kind with equal contents. Objects have the same type and equal fields, all the
way down. -/
inductive Exact : Value → Value → Prop where
  | scalar {a b : Scalar} : a.Alike b → Exact (.scalar a) (.scalar b)
  | type {t : TypeName} : Exact (.type t) (.type t)
  | object {a b : Ref} : a.type = b.type → ExactFields (h.fields a) (h.fields b) →
      Exact (.object a) (.object b)

/-- As many fields, whose names and values are equal position by position. -/
inductive ExactFields : Fields → Fields → Prop where
  | nil : ExactFields [] []
  | cons {name : String} {v w : Value} {rest rest' : Fields} : Exact v w →
      ExactFields rest rest' → ExactFields ((name, v) :: rest) ((name, w) :: rest')

end

mutual

/-- An actual value offers what an expected one asks for: the same number, another scalar or type
that is equal, or an object with the expected fields and perhaps more, all the way down. -/
inductive Equivalent : Value → Value → Prop where
  | number {v w : Value} {n : Extended} : v.number? = some n → w.number? = some n → Equivalent v w
  | scalar {s : Scalar} : s.number? = none → Equivalent (.scalar s) (.scalar s)
  | type {t : TypeName} : Equivalent (.type t) (.type t)
  | object {a b : Ref} : OffersFields (h.fields b) (h.fields a) →
      Equivalent (.object a) (.object b)

/-- Among some fields, each expected field is found by its name and has an equivalent value. -/
inductive OffersFields : (actual expected : Fields) → Prop where
  | nil {actual : Fields} : OffersFields actual []
  | cons {name : String} {v w : Value} {actual rest : Fields} : actual.get? name = some w →
      Equivalent v w → OffersFields actual rest → OffersFields actual ((name, v) :: rest)

end

/-- An answer that is not a failure is the right one. -/
def Decides (answer : Answer) (p : Prop) : Prop := ∀ r, answer = .ok r → (r = true ↔ p)

variable {h} {v w : Value} {same : Value → Value → Answer} {e : Failure}

private theorem decides_ok {r : Bool} {p : Prop} (hr : r = true ↔ p) : Decides (.ok r) p := by
  rintro _ ⟨⟩
  exact hr

private theorem Decides.of_iff {answer : Answer} {p q : Prop} (ha : Decides answer p)
    (hpq : p ↔ q) :
    Decides answer q :=
  fun r hr ↦ (ha r hr).trans hpq

/-- Answering one question and then, if it holds, another decides both. -/
theorem Decides.andThen {answer rest : Answer} {p q : Prop} :
    Decides answer p → Decides rest q → Decides (match answer with
      | .ok true => rest
      | answer => answer) (p ∧ q) := by
  intro hp hq r hr
  split at hr
  · rw [hq r hr]
    exact (and_iff_right ((hp true rfl).mp rfl)).symm
  · next hne =>
    cases r with
    | true => exact absurd hr hne
    | false =>
      have hnot : ¬ p := fun h ↦ Bool.false_ne_true ((hp false hr).mpr h)
      simp [hnot]

/-! ### Exact equality -/

private theorem exactFields_cons_iff {name name' : String} {rest rest' : Fields} :
    ExactFields h ((name, v) :: rest) ((name', w) :: rest') ↔
      name = name' ∧ Exact h v w ∧ ExactFields h rest rest' := by
  constructor
  · intro hf
    cases hf with
    | cons hvw hrest => exact ⟨rfl, hvw, hrest⟩
  · rintro ⟨rfl, hvw, hrest⟩
    exact .cons hvw hrest

/-- Fields are compared rightly if their values are. -/
theorem pairwise_decides {fields fields' : Fields} (hlen : fields.length = fields'.length)
    (hsame : ∀ name v, (name, v) ∈ fields → ∀ w, Decides (same v w) (Exact h v w)) :
    Decides (pairwise same fields fields') (ExactFields h fields fields') := by
  induction fields generalizing fields' with
  | nil =>
    obtain rfl := List.length_eq_zero_iff.mp hlen.symm
    exact decides_ok ⟨fun _ ↦ .nil, fun _ ↦ rfl⟩
  | cons field rest ih =>
    obtain ⟨name, v⟩ := field
    obtain ⟨⟨name', w⟩, rest', rfl⟩ := List.exists_cons_of_length_eq_add_one hlen.symm
    have hv := hsame name v List.mem_cons_self w
    have hrest := ih (Nat.succ.inj hlen) fun name v hm ↦ hsame name v (List.mem_cons_of_mem _ hm)
    rw [pairwise]
    split
    · next hn => exact decides_ok (by simp [exactFields_cons_iff, hn])
    · next hn =>
      apply (hv.andThen hrest).of_iff
      rw [exactFields_cons_iff, and_iff_right (not_not.mp hn)]

/-- Fields fail to compare only if two of their values do. -/
theorem exists_of_pairwise_eq_error {fields fields' : Fields}
    (he : pairwise same fields fields' = .error e) :
    ∃ name v name' w, (name, v) ∈ fields ∧ (name', w) ∈ fields' ∧ same v w = .error e := by
  induction fields generalizing fields' with
  | nil => cases he
  | cons field rest ih =>
    obtain ⟨name, v⟩ := field
    cases fields' with
    | nil => cases he
    | cons field' rest' =>
      obtain ⟨name', w⟩ := field'
      rw [pairwise] at he
      split at he
      · cases he
      · split at he
        · obtain ⟨n, x, n', y, hx, hy, hxy⟩ := ih he
          exact ⟨n, x, n', y, List.mem_cons_of_mem _ hx, List.mem_cons_of_mem _ hy, hxy⟩
        · exact ⟨name, v, name', w, List.mem_cons_self, List.mem_cons_self, he⟩

private theorem ExactFields.length_eq {fields fields' : Fields}
    (hf : ExactFields h fields fields') :
    fields.length = fields'.length := by
  induction fields generalizing fields' with
  | nil =>
    cases hf
    rfl
  | cons field rest ih =>
    rcases hf with _ | ⟨-, hf⟩
    rw [List.length_cons, List.length_cons, ih hf]

/-- An acyclic value equals itself, whether or not it is looked into. -/
theorem Exact.refl (hv : h.Acyclic v) : Exact h v v := by
  refine Heap.Acyclic.induction (motive := fun v ↦ Exact h v v) (fun v ih ↦ ?_) hv
  cases v with
  | scalar s => exact .scalar .refl
  | type t => exact .type
  | object r =>
    have hall : ∀ fields : Fields, (∀ name v, (name, v) ∈ fields → Exact h v v) →
        ExactFields h fields fields := by
      intro fields hf
      induction fields with
      | nil => exact .nil
      | cons field rest ihf =>
        exact .cons (hf field.1 field.2 List.mem_cons_self)
          (ihf fun name v hm ↦ hf name v (List.mem_cons_of_mem _ hm))
    exact .object rfl (hall _ fun name v hm ↦ ih v (.intro hm))

private theorem exact_scalar_iff {a b : Scalar} : Exact h (.scalar a) (.scalar b) ↔ a.Alike b := by
  constructor
  · intro hab
    cases hab with
    | scalar hab => exact hab
  · exact .scalar

private theorem exact_type_iff {a b : TypeName} : Exact h (.type a) (.type b) ↔ a = b := by
  constructor
  · intro hab
    cases hab with
    | type => rfl
  · rintro rfl
    exact .type

private theorem exact_object_iff {a b : Ref} : Exact h (.object a) (.object b) ↔
    a.type = b.type ∧ ExactFields h (h.fields a) (h.fields b) := by
  constructor
  · intro hab
    cases hab with
    | object ht hf => exact ⟨ht, hf⟩
  · intro hab
    exact .object hab.1 hab.2

/-- Any number of steps through an acyclic value decides exact equality, if they suffice. -/
theorem exactWithin_decides {steps : Nat} (hv : h.Acyclic v) :
    Decides (exactWithin h steps v w) (Exact h v w) := by
  induction steps generalizing v w with
  | zero => exact nofun
  | succ steps ih =>
    match v, w with
    | .scalar a, .scalar b =>
      apply decides_ok
      rw [Scalar.same_iff, exact_scalar_iff]
    | .type a, .type b =>
      apply decides_ok
      rw [beq_iff_eq, exact_type_iff]
    | .object a, .object b =>
      rw [exactWithin]
      split
      · next hab => exact decides_ok ⟨fun _ ↦ hab ▸ Exact.refl hv, fun _ ↦ rfl⟩
      split
      · next ht => exact decides_ok (by simp [exact_object_iff, ht])
      split
      · next hl =>
        refine decides_ok ⟨nofun, ?_⟩
        intro hab
        exact absurd (exact_object_iff.mp hab).2.length_eq hl
      · next ht hl =>
        have hfields := pairwise_decides (not_not.mp hl)
          fun _ _ hm _ ↦ ih (hv.of_holds (.intro hm))
        apply hfields.of_iff
        rw [exact_object_iff, and_iff_right (not_not.mp ht)]
    | .scalar _, .type _ | .scalar _, .object _ | .type _, .scalar _ | .type _, .object _
    | .object _, .scalar _ | .object _, .type _ => exact decides_ok ⟨nofun, nofun⟩

/-- A comparison that needs more steps follows a chain of that length in both values. -/
theorem chains_of_exactWithin {steps : Nat} (he : exactWithin h steps v w = .error e) :
    h.HasChain steps v ∧ h.HasChain steps w := by
  induction steps generalizing v w with
  | zero => exact ⟨.here, .here⟩
  | succ steps ih =>
    match v, w with
    | .object a, .object b =>
      rw [exactWithin] at he
      split at he
      · cases he
      split at he
      · cases he
      split at he
      · cases he
      · obtain ⟨name, v, name', w, hv, hw, hvw⟩ := exists_of_pairwise_eq_error he
        obtain ⟨hcv, hcw⟩ := ih hvw
        exact ⟨.field (.intro hv) hcv, .field (.intro hw) hcw⟩
    | .scalar _, .scalar _ | .scalar _, .type _ | .scalar _, .object _ | .type _, .scalar _
    | .type _, .type _ | .type _, .object _ | .object _, .scalar _ | .object _, .type _ => cases he

/-! ### Structural equivalence -/

private theorem offersFields_cons_iff {name : String} {actual rest : Fields} :
    OffersFields h actual ((name, v) :: rest) ↔
      ∃ w, actual.get? name = some w ∧ Equivalent h v w ∧ OffersFields h actual rest := by
  constructor
  · intro hf
    cases hf with
    | cons hw hvw hrest => exact ⟨_, hw, hvw, hrest⟩
  · rintro ⟨w, hw, hvw, hrest⟩
    exact .cons hw hvw hrest

/-- Fields are found and compared rightly if their values are. -/
theorem byName_decides {fields actual : Fields}
    (hsame : ∀ name v, (name, v) ∈ fields → ∀ w, Decides (same v w) (Equivalent h v w)) :
    Decides (byName same actual fields) (OffersFields h actual fields) := by
  induction fields with
  | nil => exact decides_ok ⟨fun _ ↦ .nil, fun _ ↦ rfl⟩
  | cons field rest ih =>
    obtain ⟨name, v⟩ := field
    have hrest := ih fun name v hm ↦ hsame name v (List.mem_cons_of_mem _ hm)
    rw [byName]
    split
    · next hn => exact decides_ok (by simp [offersFields_cons_iff, hn])
    · next w hw =>
      apply ((hsame name v List.mem_cons_self w).andThen hrest).of_iff
      simp [offersFields_cons_iff, hw]

/-- A field that is found is one of the fields. -/
theorem Fields.mem_of_get? {fields : Fields} {name : String} (hg : fields.get? name = some v) :
    (name, v) ∈ fields := by
  induction fields with
  | nil => cases hg
  | cons field rest ih =>
    obtain ⟨other, x⟩ := field
    rw [Fields.get?, List.lookup_cons] at hg
    split at hg
    · next hn =>
      obtain rfl := beq_iff_eq.mp hn
      cases hg
      exact List.mem_cons_self
    · exact List.mem_cons_of_mem _ (ih hg)

/-- A field whose name no other one has is found by its name. -/
theorem Fields.get?_of_mem {fields : Fields} {name : String} (hn : fields.names.Nodup)
    (hm : (name, v) ∈ fields) : fields.get? name = some v := by
  induction fields with
  | nil => cases hm
  | cons field rest ih =>
    obtain ⟨other, x⟩ := field
    obtain ⟨hother, hrest⟩ := List.nodup_cons.mp hn
    rw [Fields.get?, List.lookup_cons]
    rcases List.mem_cons.mp hm with heq | hmr
    · cases heq
      rw [beq_self_eq_true]
    · have hne : name ≠ other := by
        rintro rfl
        have hmem : (name, v).1 ∈ Fields.names rest := List.mem_map_of_mem hmr
        exact hother hmem
      rw [beq_eq_false_iff_ne.mpr hne]
      exact ih hrest hmr

/-- Fields fail to compare only if two of their values do. -/
theorem exists_of_byName_eq_error {fields actual : Fields}
    (he : byName same actual fields = .error e) :
    ∃ name v w, (name, v) ∈ fields ∧ (name, w) ∈ actual ∧ same v w = .error e := by
  induction fields with
  | nil => cases he
  | cons field rest ih =>
    obtain ⟨name, v⟩ := field
    rw [byName] at he
    split at he
    · cases he
    · next w hw =>
      split at he
      · obtain ⟨n, x, y, hx, hy, hxy⟩ := ih he
        exact ⟨n, x, y, List.mem_cons_of_mem _ hx, hy, hxy⟩
      · exact ⟨name, v, w, List.mem_cons_self, Fields.mem_of_get? hw, he⟩

variable (h) in
/-- No two fields of an object inside a value have one name. -/
def HasDistinctNames (v : Value) : Prop :=
  ∀ r, h.Reaches v (.object r) → (h.fields r).names.Nodup

/-- What a value with distinct names holds has distinct names. -/
theorem HasDistinctNames.of_holds (hn : HasDistinctNames h v) (hvw : h.Holds v w) :
    HasDistinctNames h w :=
  fun r hr ↦ hn r (hvw.reaches.trans hr)

/-- A value whose fields have distinct names offers what it asks for. -/
theorem Equivalent.refl (hv : h.Acyclic v) (hn : HasDistinctNames h v) : Equivalent h v v := by
  refine Heap.Acyclic.induction (motive := fun v ↦ HasDistinctNames h v → Equivalent h v v)
    (fun v ih hn ↦ ?_) hv hn
  cases v with
  | scalar s =>
    cases hs : s.number? with
    | none => exact .scalar hs
    | some n => exact .number hs hs
  | type t => exact .type
  | object r =>
    have hall : ∀ fields : Fields,
        (∀ name v, (name, v) ∈ fields → (h.fields r).get? name = some v ∧ Equivalent h v v) →
        OffersFields h (h.fields r) fields := by
      intro fields hf
      induction fields with
      | nil => exact .nil
      | cons field rest ihf =>
        obtain ⟨hg, hv⟩ := hf field.1 field.2 List.mem_cons_self
        exact .cons hg hv (ihf fun name v hm ↦ hf name v (List.mem_cons_of_mem _ hm))
    refine .object (hall _ fun name v hm ↦ ⟨Fields.get?_of_mem (hn r .refl) hm, ?_⟩)
    exact ih v (.intro hm) (hn.of_holds (.intro hm))

/-- Numbers are equivalent if they are the same number. -/
theorem equivalent_number_iff {a b : Extended} (hv : v.number? = some a)
    (hw : w.number? = some b) : Equivalent h v w ↔ a = b := by
  constructor
  · rintro (⟨ha, hb⟩ | hs | _ | _)
    · exact Option.some.inj (hv.symm.trans (ha.trans (hb.symm.trans hw)))
    · rw [Value.number?, hs] at hv
      cases hv
    · cases hv
    · cases hv
  · rintro rfl
    exact .number hv hw

/-- Scalars that are not both numbers are equivalent if they are equal. -/
theorem equivalent_scalar_iff {a b : Scalar}
    (hno : ∀ m n, a.number? = some m → b.number? = some n → False) :
    Equivalent h (.scalar a) (.scalar b) ↔ a.Alike b := by
  constructor
  · intro hab
    cases hab with
    | number ha hb => exact (hno _ _ ha hb).elim
    | scalar => exact .refl
  · intro hab
    cases hab with
    | refl =>
      cases ha : a.number? with
      | none => exact .scalar ha
      | some n => exact (hno n n ha ha).elim
    | float | double => exact (hno _ _ rfl rfl).elim

private theorem equivalent_type_iff {a b : TypeName} :
    Equivalent h (.type a) (.type b) ↔ a = b := by
  constructor
  · intro hab
    cases hab with
    | number ha _ => cases ha
    | type => rfl
  · rintro rfl
    exact .type

private theorem equivalent_object_iff {a b : Ref} :
    Equivalent h (.object a) (.object b) ↔ OffersFields h (h.fields b) (h.fields a) := by
  constructor
  · intro hab
    cases hab with
    | number ha _ => cases ha
    | object hf => exact hf
  · exact .object

/-- Any number of steps through an acyclic value decides equivalence, if they suffice. -/
theorem equivalentWithin_decides {steps : Nat} (hv : h.Acyclic v) (hn : HasDistinctNames h v) :
    Decides (equivalentWithin h steps v w) (Equivalent h v w) := by
  induction steps generalizing v w with
  | zero => exact nofun
  | succ steps ih =>
    rw [equivalentWithin_succ]
    split
    · next a b ha hb =>
      apply decides_ok
      rw [equivalent_number_iff ha hb, beq_iff_eq]
    · next hno =>
      match v, w with
      | .scalar a, .scalar b =>
        apply decides_ok
        rw [Scalar.same_iff, equivalent_scalar_iff hno]
      | .type a, .type b =>
        apply decides_ok
        rw [beq_iff_eq, equivalent_type_iff]
      | .object a, .object b =>
        dsimp only
        split
        · next hab => exact decides_ok ⟨fun _ ↦ hab ▸ Equivalent.refl hv hn, fun _ ↦ rfl⟩
        · have hfields : Decides (byName (equivalentWithin h steps) (h.fields b) (h.fields a))
              (OffersFields h (h.fields b) (h.fields a)) := by
            apply byName_decides
            intro _ _ hm _
            exact ih (hv.of_holds (.intro hm)) (hn.of_holds (.intro hm))
          exact hfields.of_iff equivalent_object_iff.symm
      | .scalar _, .type _ | .scalar _, .object _ | .type _, .scalar _ | .type _, .object _
      | .object _, .scalar _ | .object _, .type _ =>
        refine decides_ok ⟨nofun, ?_⟩
        intro hvw
        cases hvw with
        | number ha hb => exact (hno _ _ ha hb).elim

/-- A comparison that needs more steps follows a chain of that length in both values. -/
theorem chains_of_equivalentWithin {steps : Nat} (he : equivalentWithin h steps v w = .error e) :
    h.HasChain steps v ∧ h.HasChain steps w := by
  induction steps generalizing v w with
  | zero => exact ⟨.here, .here⟩
  | succ steps ih =>
    rw [equivalentWithin_succ] at he
    split at he
    · cases he
    split at he
    · cases he
    · cases he
    · split at he
      · cases he
      · obtain ⟨name, v, w, hv, hw, hvw⟩ := exists_of_byName_eq_error he
        obtain ⟨hcv, hcw⟩ := ih hvw
        exact ⟨.field (.intro hv) hcv, .field (.intro hw) hcw⟩
    · cases he

/-! ### Both comparisons -/

/-- Comparisons with an acyclic expected value of distinct names are right, unless both values have
chains of more than `maxDepth` steps. -/
theorem right_unless_tooDeep (h : Heap) (expected actual : Value) (ha : h.Acyclic expected) :
    Decides (exactlyEqual h expected actual) (Exact h expected actual) ∧
    (HasDistinctNames h expected →
      Decides (equivalent h expected actual) (Equivalent h expected actual)) ∧
    (exactlyEqual h expected actual = .error .tooDeep ∨
        equivalent h expected actual = .error .tooDeep →
      h.HasChain (maxDepth + 1) expected ∧ h.HasChain (maxDepth + 1) actual) ∧
    (¬ (h.HasChain (maxDepth + 1) expected ∧ h.HasChain (maxDepth + 1) actual) →
      (∃ r, exactlyEqual h expected actual = .ok r) ∧
        ∃ r, equivalent h expected actual = .ok r) := by
  refine ⟨exactWithin_decides ha, equivalentWithin_decides ha, ?_, ?_⟩
  · rintro (he | he)
    · exact chains_of_exactWithin he
    · exact chains_of_equivalentWithin he
  · intro hshort
    constructor
    · cases hr : exactlyEqual h expected actual with
      | ok r => exact ⟨r, rfl⟩
      | error e => exact (hshort (chains_of_exactWithin hr)).elim
    · cases hr : equivalent h expected actual with
      | ok r => exact ⟨r, rfl⟩
      | error e => exact (hshort (chains_of_equivalentWithin hr)).elim

/-- Two cells and two pairs of cells: the first pair has one cell twice, the second has both. -/
def twoPairs : Heap :=
  let cell (n : Nat) : Value := .object ⟨.declared "Cell", n⟩
  ⟨#[[("n", .int 1)], [("n", .int 1)], [("a", cell 0), ("b", cell 0)],
    [("a", cell 0), ("b", cell 1)]]⟩

/-- A pair of one cell equals a pair of two cells that are equal. -/
theorem right_on_twoPairs :
    let pair (n : Nat) : Value := .object ⟨.declared "Pair", n⟩
    twoPairs.Acyclic (pair 2) ∧ HasDistinctNames twoPairs (pair 2) ∧
      Exact twoPairs (pair 2) (pair 3) ∧ Equivalent twoPairs (pair 2) (pair 3) := by
  intro pair
  have hacyclic : twoPairs.Acyclic (pair 2) := by
    refine Heap.acyclic_of_older ?_
    rintro ⟨type, _ | _ | _ | _ | n⟩ name s hs <;> simp [twoPairs, Heap.fields, Value.int] at hs ⊢
    all_goals rcases hs with ⟨-, rfl⟩ | ⟨-, rfl⟩ <;> simp
  have hnames : HasDistinctNames twoPairs (pair 2) := by
    rintro ⟨type, _ | _ | _ | _ | n⟩ - <;> simp [twoPairs, Heap.fields, Fields.names]
  obtain ⟨hexact, hequivalent, -, -⟩ := right_unless_tooDeep twoPairs (pair 2) (pair 3) hacyclic
  exact ⟨hacyclic, hnames, (hexact true (by decide +kernel)).mp rfl,
    (hequivalent hnames true (by decide +kernel)).mp rfl⟩

end Comparison

end TestDeclaration
