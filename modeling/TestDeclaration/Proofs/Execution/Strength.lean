import TestDeclaration.Execution
import TestDeclaration.Proofs.Comparison.Laws
import TestDeclaration.Proofs.Value.Correspondence

/-!
# The strength of expectations

On one channel, expecting a value exactly is stronger than expecting an equivalent one or one of
its type. An object with two fields of one name is the exception. Expectations on different
channels have no outcome in common.
-/

namespace TestDeclaration

open Comparison

variable {h h' : Heap} {v w : Value}

/-! ### Heaps that grow -/

/-- All objects inside a value are objects of the heap. -/
def Heap.Covers (h : Heap) (v : Value) : Prop :=
  ∀ r, h.Reaches v (.object r) → r.address < h.objects.size

/-- If all fields hold objects of the heap, nothing else is inside any of its objects. -/
theorem Heap.covers_of_forall {r : Ref} (hr : r.address < h.objects.size)
    (hall : ∀ r name s, (name, .object s) ∈ h.fields r → s.address < h.objects.size) :
    h.Covers (.object r) := by
  intro s hs
  rcases Relation.ReflTransGen.cases_tail hs with heq | ⟨_, _, ⟨hs⟩⟩
  · cases heq
    exact hr
  · exact hall _ _ _ hs

/-- New objects are not inside the values that were there before. -/
theorem Heap.Covers.reaches_of_keeps (hc : h.Covers v) (hk : h.Keeps h')
    (hvw : h'.Reaches v w) : h.Reaches v w := by
  induction hvw with
  | refl => exact .refl
  | tail _ hw ih =>
    rcases hw with @⟨r, _, _, hw⟩
    rw [hk.fields_eq (hc r ih)] at hw
    exact .tail ih (.intro hw)

private theorem Comparison.HasDistinctNames.of_keeps (hn : HasDistinctNames h v) (hc : h.Covers v)
    (hk : h.Keeps h') : HasDistinctNames h' v := by
  intro r hr
  have hr := hc.reaches_of_keeps hk hr
  rw [hk.fields_eq (hc r hr)]
  exact hn r hr

/-! ### Criteria and expectations -/

namespace Criterion

private theorem toOption_beq_true_iff {answer : Answer} :
    (answer.toOption == some true) = true ↔ answer = .ok true := by
  rcases answer with e | r
  · exact ⟨nofun, nofun⟩
  · rw [beq_iff_eq, Except.toOption, Option.some.injEq, Except.ok.injEq]

/-- An exact value is met by what is exactly equal to it. -/
theorem accepts_exactly_iff : (exactly v).accepts h w ↔ exactlyEqual h v w = .ok true :=
  toOption_beq_true_iff

/-- A loose value is met by its equivalents. -/
theorem accepts_equivalentTo_iff :
    (equivalentTo v).accepts h w ↔ equivalent h v w = .ok true :=
  toOption_beq_true_iff

/-- What is exactly some value has its type. -/
theorem accepts_ofType (hvw : (exactly v).accepts h w) : (ofType v.typeName).accepts h w := by
  rw [accepts_exactly_iff] at hvw
  rw [accepts, beq_iff_eq, (exactWithin_eq_true_iff.mp hvw).typeName_eq]

/-- What is exactly some value is an equivalent of it, if no object inside repeats a name. -/
theorem accepts_equivalentTo (hn : HasDistinctNames h v) (hvw : (exactly v).accepts h w) :
    (equivalentTo v).accepts h w := by
  rw [accepts_exactly_iff] at hvw
  rw [accepts_equivalentTo_iff]
  exact equivalentWithin_of_exactWithin hn hvw

end Criterion

namespace Expectation

variable {channel : Channel} {c c' : Criterion} {o : Outcome}

/-- An expectation looks at the outcomes of its channel only. -/
theorem exists_of_accepts (ho : accepts h ⟨channel, c⟩ o) :
    channel = .returned ∧ (∃ w, o = .returned w) ∨ channel = .thrown ∧ ∃ f, o = .thrown f := by
  cases channel <;> cases o
  case returned.returned w => exact .inl ⟨rfl, w, rfl⟩
  case thrown.thrown f => exact .inr ⟨rfl, f, rfl⟩
  all_goals cases ho

/-- An expectation is stronger than another one on its channel if its criterion is, both on the
heap as it is and with the object of a fault. -/
theorem accepts_of_criterion (hcc : ∀ w, c.accepts h w → c'.accepts h w)
    (hcc' : channel = .thrown → ∀ h', h.Keeps h' → ∀ w, c.accepts h' w → c'.accepts h' w)
    (ho : accepts h ⟨channel, c⟩ o) : accepts h ⟨channel, c'⟩ o := by
  obtain ⟨rfl, w, rfl⟩ | ⟨rfl, f, rfl⟩ := exists_of_accepts ho
  · exact hcc w ho
  · exact hcc' rfl _ (Heap.keepsExcept_alloc _ h f.type f.fields) _ ho

end Expectation

/-- Two objects whose two fields have one name. -/
def twins : Heap := ⟨#[[("n", .int 1), ("n", .int 2)], [("n", .int 1), ("n", .int 2)]]⟩

/-- What meets an exact expectation meets the equivalent one, if names are distinct, and the one of
its type, on the same channel only. -/
theorem expectations_ordered_by_strength :
    (∀ h v w, HasDistinctNames h v → exactlyEqual h v w = .ok true →
      equivalent h v w = .ok true) ∧
    (∀ h v o channel, Expectation.accepts h ⟨channel, .exactly v⟩ o →
      Expectation.accepts h ⟨channel, .ofType v.typeName⟩ o ∧
      (HasDistinctNames h v → (channel = .thrown → h.Covers v) →
        Expectation.accepts h ⟨channel, .equivalentTo v⟩ o)) ∧
    (∀ h c v f, ¬ Expectation.accepts h ⟨.returned, c⟩ (.thrown f) ∧
      ¬ Expectation.accepts h ⟨.thrown, c⟩ (.returned v)) ∧
    ∃ h a b, a.address ≠ b.address ∧
      ¬ (Heap.fields h a).names.Nodup ∧ ¬ (Heap.fields h b).names.Nodup ∧
      exactlyEqual h (.object a) (.object b) = .ok true ∧
      equivalent h (.object a) (.object b) = .ok false := by
  refine ⟨fun h v w ↦ equivalentWithin_of_exactWithin, fun h v o channel ho ↦ ⟨?_, ?_⟩, ?_, ?_⟩
  · have hall : ∀ h w, (Criterion.exactly v).accepts h w →
        (Criterion.ofType v.typeName).accepts h w := fun _ _ ↦ Criterion.accepts_ofType
    exact Expectation.accepts_of_criterion (hall h) (fun _ h' _ ↦ hall h') ho
  · intro hn hc
    refine Expectation.accepts_of_criterion ?_ ?_ ho
    · intro w
      exact Criterion.accepts_equivalentTo hn
    · intro hthrown h' hk w
      exact Criterion.accepts_equivalentTo (hn.of_keeps (hc hthrown) hk)
  · intro h c v f
    exact ⟨nofun, nofun⟩
  · refine ⟨twins, ⟨.declared "Twin", 0⟩, ⟨.declared "Twin", 1⟩, ?_⟩
    decide +kernel

/-- The object of a fault that is its own cause. -/
def ownCause : Heap :=
  ⟨#[[("message", .string "again"), ("cause", .object ⟨Fault.Kind.argument.typeName, 0⟩)]]⟩

/-- A fault with this cause meets all expectations of it. -/
theorem ownCause_expected :
    let v : Value := .object ⟨Fault.Kind.argument.typeName, 0⟩
    let o : Outcome := .thrown ⟨Fault.Kind.argument.typeName, "again", [("cause", v)]⟩
    HasDistinctNames ownCause v ∧ ownCause.Covers v ∧
      Expectation.accepts ownCause ⟨.thrown, .exactly v⟩ o ∧
      Expectation.accepts ownCause ⟨.thrown, .ofType v.typeName⟩ o ∧
      Expectation.accepts ownCause ⟨.thrown, .equivalentTo v⟩ o := by
  intro v o
  have hnames : HasDistinctNames ownCause v := by
    rintro ⟨type, _ | n⟩ - <;> simp [ownCause, Heap.fields, Fields.names]
  have hcovers : ownCause.Covers v := by
    refine Heap.covers_of_forall (by decide) ?_
    rintro ⟨type, _ | n⟩ name s hs <;> simp [ownCause, Heap.fields, Value.string] at hs ⊢
    rw [hs.2]
  have hexact : Expectation.accepts ownCause ⟨.thrown, .exactly v⟩ o := by decide +kernel
  obtain ⟨htype, hequivalent⟩ := expectations_ordered_by_strength.2.1 ownCause v o .thrown hexact
  exact ⟨hnames, hcovers, hexact, htype, hequivalent hnames fun _ ↦ hcovers⟩

end TestDeclaration
