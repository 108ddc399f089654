import Mathlib.Data.List.Nodup
import TestDeclaration.Proofs.Value.Correspondence

/-!
# The laws of the store

Writing a field of an object is a write to a store of named slots: it is read back, through any
reference to the object, and nothing else is touched. Names may repeat; a write goes to the first
field of its name, which is the one that is read. None of this depends on what is written, so an
object can be written into itself.
-/

namespace TestDeclaration

/-! ### Fields -/

namespace Fields

variable {fields : Fields} {name : String} {v w : Value}

/-- What a write makes of some fields: the first field of the name gets the value, or a field is
added behind all others if there is none. -/
inductive Writes (name : String) (v : Value) : Fields → Fields → Prop where
  | first (before behind : Fields) {w : Value} : name ∉ before.names →
      Writes name v (before ++ (name, w) :: behind) (before ++ (name, v) :: behind)
  | added {fields : Fields} : name ∉ fields.names → Writes name v fields (fields ++ [(name, v)])

/-- A field in front that has another name plays no part. -/
theorem Writes.cons {fields' : Fields} {other : String} (hne : other ≠ name)
    (h : Writes name v fields fields') :
    Writes name v ((other, w) :: fields) ((other, w) :: fields') := by
  have hnot : ∀ {rest : Fields}, name ∉ rest.names → name ∉ names ((other, w) :: rest) :=
    fun hrest ↦ List.not_mem_cons_of_ne_of_not_mem hne.symm hrest
  cases h with
  | first before behind hbefore => exact .first ((other, w) :: before) behind (hnot hbefore)
  | added hfields => exact .added (hnot hfields)

private theorem writes_set (fields : Fields) (name : String) (v : Value) :
    Writes name v fields (fields.set name v) := by
  induction fields with
  | nil => exact .added List.not_mem_nil
  | cons field rest ih =>
    obtain ⟨other, w⟩ := field
    unfold set
    split
    · next h =>
      rw [h]
      exact .first [] rest List.not_mem_nil
    · next h => exact ih.cons h

/-- Distinct names stay distinct. -/
theorem nodup_names_set (h : fields.names.Nodup) (name : String) (v : Value) :
    (fields.set name v).names.Nodup := by
  rw [names_set]
  split
  · exact h
  · next hname =>
    rw [← List.concat_eq_append]
    exact List.Nodup.concat hname h

/-- Writing what is read changes nothing. -/
theorem set_of_get? (h : fields.get? name = some v) : fields.set name v = fields := by
  induction fields with
  | nil => cases h
  | cons field rest ih =>
    obtain ⟨other, w⟩ := field
    unfold get? at h ih
    unfold set
    split
    · next heq =>
      rw [heq, List.lookup_cons_self, Option.some.injEq] at h
      rw [h]
    · next hne =>
      rw [List.lookup_cons, beq_eq_false_iff_ne.mpr (Ne.symm hne)] at h
      rw [ih h]

/-- All values in the fields after a write are old ones or the one that was written. -/
theorem mem_of_mem_set {field : String × Value} (h : field ∈ fields.set name v) :
    field ∈ fields ∨ field.2 = v := by
  have hwrites := writes_set fields name v
  generalize fields.set name v = fields' at h hwrites
  cases hwrites with
  | first | added => grind

end Fields

/-! ### Types -/

/-- The type that a value gives an object is the one that some assignment of types gives it. -/
def Value.TypedBy (types : Nat → TypeName) : Value → Prop
  | .object r => r.type = types r.address
  | .scalar _ | .type _ => True

namespace Heap

variable {h : Heap} {r s : Ref} {name other : String} {v : Value}

/-- All references in a heap give the objects the types of one assignment. -/
def TypedBy (types : Nat → TypeName) (h : Heap) : Prop :=
  ∀ r, ∀ field ∈ h.fields r, field.2.TypedBy types

/-! ### Objects -/

/-- An object is written alike through all references to it. -/
theorem set_of_address_eq (ha : r.address = s.address) : h.set r name v = h.set s name v := by
  unfold set
  rw [ha]

private theorem size_set (h : Heap) (r : Ref) (name : String) (v : Value) :
    (h.set r name v).objects.size = h.objects.size := by
  simp [set]

/-- Writing what is read through some reference changes nothing. -/
theorem set_of_get? (hv : h.get? s name = some v) (ha : r.address = s.address) :
    h.set r name v = h := by
  have hr : r.address < h.objects.size := by
    rw [ha]
    refine lt_size_of_fields_ne_nil fun hnil ↦ ?_
    rw [get?, hnil] at hv
    cases hv
  have hfields : Fields.set (h.fields r) name v = h.fields r := by
    refine Fields.set_of_get? ?_
    rwa [fields_of_address_eq ha]
  obtain ⟨objects⟩ := h
  simp only [fields, Array.getElem?_eq_getElem hr, Option.getD_some] at hfields
  simp only [set, mk.injEq]
  refine Array.ext (by simp) fun i hi hi' ↦ ?_
  rw [Array.getElem_modify]
  split
  · next heq =>
    subst heq
    exact hfields
  · rfl

/-- A write keeps the types of all objects, provided that the value written agrees with them. -/
theorem TypedBy.set {types : Nat → TypeName} (hh : h.TypedBy types) (hv : v.TypedBy types)
    (hr : r.address < h.objects.size) (name : String) : (h.set r name v).TypedBy types := by
  intro s field hmem
  by_cases ha : r.address = s.address
  · rw [fields_set_self h name v hr ha] at hmem
    rcases Fields.mem_of_mem_set hmem with hold | hnew
    · exact hh r field hold
    · rwa [hnew]
  · rw [fields_set_of_ne h name v ha] at hmem
    exact hh s field hmem

private theorem get?_set_self (h : Heap) (name : String) (v : Value)
    (hr : r.address < h.objects.size)
    (ha : r.address = s.address) : (h.set r name v).get? s name = some v := by
  rw [get?, fields_set_self h name v hr ha, Fields.get?_set_self]

private theorem get?_set_of_ne (h : Heap) (v : Value) (hr : r.address < h.objects.size)
    (ha : r.address = s.address) (hne : other ≠ name) :
    (h.set r name v).get? s other = h.get? s other := by
  rw [get?, get?, fields_set_self h name v hr ha, Fields.get?_set_of_ne _ v hne,
    fields_of_address_eq ha]

/-- A field that is set reads as it was set through every reference to its object, and nothing else
changes. -/
theorem set_obeys_store_laws (h : Heap) (hr : r.address < h.objects.size) (name : String)
    (v : Value) :
    (∀ s, s.address = r.address →
      h.set s name v = h.set r name v ∧
      (h.set r name v).get? s name = some v ∧
      (∀ other ≠ name, (h.set r name v).get? s other = h.get? s other) ∧
      (h.set r name v).set s name v = h.set r name v) ∧
    Fields.Writes name v (h.fields r) ((h.set r name v).fields r) ∧
    ((h.set r name v).fields r).names =
      (if name ∈ (h.fields r).names then (h.fields r).names else (h.fields r).names ++ [name]) ∧
    ((h.fields r).names.Nodup → ((h.set r name v).fields r).names.Nodup) ∧
    h.KeepsExcept (· = r.address) (h.set r name v) ∧
    (h.set r name v).objects.size = h.objects.size ∧
    ∀ types, v.TypedBy types → h.TypedBy types → (h.set r name v).TypedBy types := by
  have hread : ∀ s, s.address = r.address → (h.set r name v).get? s name = some v :=
    fun s hs ↦ get?_set_self h name v hr hs.symm
  rw [fields_set_self h name v hr rfl]
  refine ⟨fun s hs ↦ ⟨set_of_address_eq hs, hread s hs, fun other hne ↦ ?_, ?_⟩,
    Fields.writes_set _ name v, Fields.names_set _ name v,
    fun hnames ↦ Fields.nodup_names_set hnames name v, keepsExcept_set h name v rfl,
    size_set h r name v, fun types hv hh ↦ hh.set hv hr name⟩
  · exact get?_set_of_ne h v hr hs.symm hne
  · exact set_of_get? (hread s hs) rfl

/-- An object is written into itself, in the first of two fields of one name, beside another object
that already refers to it. -/
theorem set_obeys_store_laws_on_ring :
    let r : Ref := ⟨.declared "Node", 0⟩
    let h : Heap := ⟨#[[("next", .int 1), ("label", .string "a"), ("next", .int 2)],
      [("next", .object r)]]⟩
    let k := h.set r "next" (.object r)
    r.address < h.objects.size ∧ "label" ≠ "next" ∧
      k.fields r = [("next", .object r), ("label", .string "a"), ("next", .int 2)] ∧
      k.get? r "next" = some (.object r) ∧ k.get? r "label" = some (.string "a") ∧
      k.set r "next" (.object r) = k ∧ h.KeepsExcept (· = 0) k ∧
      k.TypedBy fun _ ↦ .declared "Node" := by
  intro r h k
  have hr : r.address < h.objects.size := by decide
  have hlabel : "label" ≠ "next" := by decide
  obtain ⟨hall, -, -, -, hkeeps, -, htypes⟩ := set_obeys_store_laws h hr "next" (.object r)
  obtain ⟨-, hread, hother, htwice⟩ := hall r rfl
  have htyped : h.TypedBy fun _ ↦ .declared "Node" := by
    rintro ⟨type, _ | _ | address⟩ field hmem
    · obtain rfl | rfl | rfl : field = ("next", .int 1) ∨ field = ("label", .string "a") ∨
          field = ("next", .int 2) := by simpa [fields, h] using hmem
      all_goals trivial
    · obtain rfl : field = ("next", .object r) := by simpa [fields, h] using hmem
      rfl
    · cases hmem
  exact ⟨hr, hlabel, rfl, hread, hother "label" hlabel, htwice, hkeeps, htypes _ rfl htyped⟩

end Heap

end TestDeclaration
