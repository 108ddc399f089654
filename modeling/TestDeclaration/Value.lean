import TestDeclaration.Scalar

/-!
# Values and objects

A value is a scalar, a type, or a reference to an object. Objects live in a heap, are shared by
all references to them and can be changed. An object's type never changes, so the reference
carries it; the heap holds what can change, the list of named fields. Names may repeat: reading
and writing a field both mean the first one of that name.
-/

namespace TestDeclaration

/-- The identity of an object, and its type. -/
structure Ref where
  type : TypeName
  address : Nat
  deriving DecidableEq, Repr

/-- What arguments, results and fields hold. -/
inductive Value where
  | scalar (s : Scalar)
  | type (t : TypeName)
  | object (r : Ref)
  deriving DecidableEq

namespace Value

/-- The type of a value. -/
def typeName : Value → TypeName
  | .scalar s => .primitive s.primitive
  | .type _ => .primitive .type
  | .object r => r.type

/-- A string as a value. -/
def string (s : String) : Value := .scalar (.string s)

/-- An int as a value. -/
def int (n : Int32) : Value := .scalar (.int n)

/-- The number of an int. -/
def asInt? : Value → Option Int32
  | .scalar (.int n) => some n
  | _ => none

/-- The number of a long. -/
def asLong? : Value → Option Int64
  | .scalar (.long n) => some n
  | _ => none

/-- The number of a double. -/
def asDouble? : Value → Option (Number.Binary .double)
  | .scalar (.double x) => some x
  | _ => none

/-- The text of a string. -/
def asString? : Value → Option String
  | .scalar (.string s) => some s
  | _ => none

/-- The type that a value is. -/
def asType? : Value → Option TypeName
  | .type t => some t
  | _ => none

/-- The object that a value refers to. -/
def asObject? : Value → Option Ref
  | .object r => some r
  | _ => none

/-- A number for a comparison across kinds; the other values are no numbers. -/
def operand? : Value → Option Number.Operand
  | .scalar s => s.operand?
  | .type _ | .object _ => none

end Value

/-- Named fields, in order. -/
abbrev Fields := List (String × Value)

namespace Fields

/-- The value of the first field of some name. -/
def get? (fields : Fields) (name : String) : Option Value := fields.lookup name

/-- Replace the value of the first field of some name, or add the field at the end. -/
def set : Fields → String → Value → Fields
  | [], name, v => [(name, v)]
  | (other, w) :: rest, name, v =>
    if other = name then (other, v) :: rest else (other, w) :: set rest name v

/-- The names of the fields. -/
def names (fields : Fields) : List String := fields.map Prod.fst

/-- A field reads as it was written. -/
theorem get?_set_self (fields : Fields) (name : String) (v : Value) :
    (fields.set name v).get? name = some v := by
  induction fields with
  | nil => simp [set, get?]
  | cons field rest ih =>
    obtain ⟨other, w⟩ := field
    unfold set
    split
    · next h => simp [get?, h]
    · next h => simpa [get?, List.lookup_cons, beq_eq_false_iff_ne.2 (Ne.symm h)] using ih

/-- Writing one field leaves the others alone. -/
theorem get?_set_of_ne (fields : Fields) {name other : String} (v : Value) (h : other ≠ name) :
    (fields.set name v).get? other = fields.get? other := by
  induction fields with
  | nil => simp [set, get?, h]
  | cons field rest ih =>
    obtain ⟨first, w⟩ := field
    unfold set
    split
    · next hf => simp [get?, hf, List.lookup_cons, beq_eq_false_iff_ne.2 h]
    · simp only [get?, List.lookup_cons] at ih ⊢
      rw [ih]

/-- Writing a field keeps the names, or adds one at the end. -/
theorem names_set (fields : Fields) (name : String) (v : Value) :
    (fields.set name v).names =
      if name ∈ fields.names then fields.names else fields.names ++ [name] := by
  induction fields with
  | nil => simp [set, names]
  | cons field rest ih =>
    obtain ⟨other, w⟩ := field
    unfold set
    split
    · next h => simp [names, h]
    · next h =>
      simp only [names, List.map_cons, List.mem_cons] at ih ⊢
      rw [ih]
      by_cases hm : name ∈ List.map Prod.fst rest <;> simp [hm, Ne.symm h]

end Fields

/-- All objects made so far: the fields of each, by address. -/
structure Heap where
  objects : Array Fields

namespace Heap

/-- The heap without objects. -/
def empty : Heap := ⟨#[]⟩

/-- The fields of an object. -/
def fields (h : Heap) (r : Ref) : Fields := h.objects[r.address]?.getD []

/-- Make a new object. -/
def alloc (h : Heap) (type : TypeName) (fields : Fields) : Ref × Heap :=
  (⟨type, h.objects.size⟩, ⟨h.objects.push fields⟩)

/-- The value of a field of an object. -/
def get? (h : Heap) (r : Ref) (name : String) : Option Value := Fields.get? (h.fields r) name

/-- Write a field of an object. -/
def set (h : Heap) (r : Ref) (name : String) (v : Value) : Heap :=
  ⟨h.objects.modify r.address fun fields ↦ Fields.set fields name v⟩

/-- A new object has the fields that it was made with. -/
theorem fields_alloc (h : Heap) (type : TypeName) (fields : Fields) :
    (h.alloc type fields).2.fields (h.alloc type fields).1 = fields := by
  simp [alloc, Heap.fields]

/-- Writing to one object leaves the others alone. -/
theorem fields_set_of_ne (h : Heap) {r s : Ref} (name : String) (v : Value)
    (hne : r.address ≠ s.address) : (h.set r name v).fields s = h.fields s := by
  simp [set, fields, Array.getElem?_modify, hne]

end Heap

end TestDeclaration
