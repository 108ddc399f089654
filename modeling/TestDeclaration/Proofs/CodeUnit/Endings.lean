import TestDeclaration.Proofs.CodeUnit.Quiet

/-!
# How native code ends

Native code ends with a result or with a fault. A judgement says which: performed in some heap, code
ends with a result that has one property, or with a fault that has another. It is proved along the
code. An argument that fits a parameter of a scalar type is always read, as long as objects have
declared types, so reading it raises nothing.
-/

namespace TestDeclaration

/-! ### Values of calls -/

/-- A value that is an object has a declared type. -/
def Value.Proper (v : Value) : Prop := ∀ r, v = .object r → r.type.IsDeclared

/-- A value whose objects have declared types is proper. -/
theorem Value.Inside.proper {S : Nat → Prop} {v : Value}
    (hv : v.Inside TypeName.IsDeclared S) : v.Proper := by
  rintro r rfl
  cases hv with
  | object ht => exact ht

/-- A proper value of a primitive type is a scalar, unless it is a type. -/
theorem Value.Proper.scalar {v : Value} (hv : v.Proper) {p : Primitive}
    (ht : v.typeName = .primitive p) (hp : p ≠ .type) :
    ∃ s, v = .scalar s ∧ s.primitive = p := by
  cases v with
  | scalar s => exact ⟨s, rfl, TypeName.primitive.inj ht⟩
  | type t => exact absurd (TypeName.primitive.inj ht).symm hp
  | object r =>
    have hdeclared := hv r rfl
    rw [show r.type = .primitive p from ht] at hdeclared
    exact hdeclared.elim

/-- Proper arguments that are not refused. -/
structure Fits (parameters : List TypeName) (args : List Value) : Prop where
  accepted : argumentRefusal? parameters args = none
  proper : ∀ v ∈ args, v.Proper

/-- The kinds of arguments that native code reads, each with its values and how they are viewed. -/
inductive Views : {α : Type} → Primitive → (α → Value) → (Value → Option α) → Prop where
  | int : Views .int Value.int Value.asInt?
  | long : Views .long (fun n ↦ .scalar (.long n)) Value.asLong?
  | double : Views .double (fun x ↦ .scalar (.double x)) Value.asDouble?
  | string : Views .string Value.string Value.asString?

namespace Views

variable {α : Type} {kind : Primitive} {value : α → Value} {view? : Value → Option α}

/-- A scalar of a kind is one of its values. -/
theorem exists_of_primitive (h : Views kind value view?) {s : Scalar} (hs : s.primitive = kind) :
    ∃ a, .scalar s = value a := by
  cases h <;> cases s <;> cases hs <;> exact ⟨_, rfl⟩

/-- A value is viewed as what it was made from. -/
theorem view_value (h : Views kind value view?) (a : α) : view? (value a) = some a := by
  cases h <;> rfl

/-- Types are of no such kind. -/
theorem ne_type (h : Views kind value view?) : kind ≠ .type := by cases h <;> decide

/-- Objects are of no such kind. -/
theorem ne_object (h : Views kind value view?) : kind ≠ .object := by cases h <;> decide

end Views

/-- Behind a parameter of a scalar kind is an argument of that kind. -/
theorem Fits.argument {parameters : List TypeName} {args : List Value}
    (hargs : Fits parameters args) {α : Type} {kind : Primitive} {value : α → Value}
    {view? : Value → Option α} (hkind : Views kind value view?) {i : Nat}
    (hp : parameters[i]? = some (.primitive kind)) : ∃ a, args[i]? = some (value a) := by
  have haccepts := accepts_of_argumentRefusal? hargs.accepted
  obtain ⟨hi', hparameter⟩ := List.getElem?_eq_some_iff.mp hp
  have hi : i < args.length := haccepts.length_eq ▸ hi'
  have hv : accepts parameters[i] args[i] := haccepts.get hi' hi
  rw [hparameter] at hv
  have htype : args[i].typeName = .primitive kind := by
    simpa [accepts, hkind.ne_object] using hv
  obtain ⟨s, hs, hprimitive⟩ :=
    (hargs.proper _ (List.getElem_mem hi)).scalar htype hkind.ne_type
  obtain ⟨a, ha⟩ := hkind.exists_of_primitive hprimitive
  exact ⟨a, by rw [List.getElem?_eq_getElem hi, hs, ha]⟩

/-! ### The judgement -/

namespace Native

variable {α β : Type} {h : Heap} {raises : Fault → Prop}

/-- Performed in a heap, code ends with a result and a heap that have some property, or with a
fault that has another. -/
def Ends (x : Native α) (h : Heap) (post : α → Heap → Prop) (raises : Fault → Prop) : Prop :=
  match x.perform h with
  | (.ok a, k) => post a k
  | (.error f, _) => raises f

namespace Ends

variable {post : α → Heap → Prop} {post' : β → Heap → Prop} {x : Native α} {f : α → Native β}

/-- Code that returns ends with what it returns. -/
theorem pure {a : α} (ha : post a h) : Ends (Pure.pure a) h post raises := ha

/-- What is known to end with a result goes on with it. -/
theorem bind_of_perform {a : α} {k : Heap} (hx : x.perform h = (.ok a, k))
    (hf : Ends (f a) k post' raises) : Ends (x >>= f) h post' raises := by
  unfold Ends at hf ⊢
  rw [perform_bind, hx]
  exact hf

/-- Nothing follows a fault. -/
theorem raise_bind {e : Fault} (he : raises e) : Ends (raise e >>= f) h post' raises := he

/-- Something that may be missing ends the code with a fault, or is there for what follows. -/
theorem orRaise_bind {a? : Option α} {e : Fault} (he : a? = none → raises e)
    (hf : ∀ a, a? = some a → Ends (f a) h post' raises) :
    Ends (orRaise a? e >>= f) h post' raises := by
  cases a? with
  | none => exact he rfl
  | some a => exact hf a rfl

/-- A choice ends as the branch that is taken. -/
theorem ite {c : Prop} [Decidable c] {x y : Native α} (hx : c → Ends x h post raises)
    (hy : ¬ c → Ends y h post raises) : Ends (if c then x else y) h post raises := by
  split
  · next hc => exact hx hc
  · next hc => exact hy hc

/-- An object is made at the end of the heap. -/
theorem create {type : TypeName} {fields : Fields} {post : Value → Heap → Prop}
    (hpost : post (.object (h.alloc type fields).1) (h.alloc type fields).2) :
    Ends (Native.create type fields) h post raises := hpost

/-- An argument that fits its parameter is read. -/
theorem argument_bind {parameters : List TypeName} {args : List Value}
    (hargs : Fits parameters args) {kind : Primitive} {value : α → Value}
    {view? : Value → Option α} (hkind : Views kind value view?) {i : Nat}
    (hp : parameters[i]? = some (.primitive kind))
    (hf : ∀ a, args[i]? = some (value a) → Ends (f a) h post' raises) :
    Ends (argumentAs kind view? args i >>= f) h post' raises := by
  obtain ⟨a, ha⟩ := hargs.argument hkind hp
  have hread : (argumentAs kind view? args i).perform h = (.ok a, h) := by
    have hpure : ∀ e, (orRaise (some (value a)) e : Native Value) = Pure.pure (value a) :=
      fun _ ↦ rfl
    unfold argumentAs argument
    rw [ha, hpure, pure_bind, perform_get_bind, perform_orRaise, hkind.view_value]
    rfl
  exact bind_of_perform hread (hf a ha)

/-- An argument that can be left out is read if it is there. -/
theorem optional_bind {parameters : List TypeName} {args : List Value}
    (hargs : Fits parameters args) {kind : Primitive} {value : α → Value}
    {view? : Value → Option α} (hkind : Views kind value view?)
    (hp : parameters ≠ [] → parameters[0]? = some (.primitive kind)) {usual : α}
    (hf : ∀ a, Ends (f a) h post' raises) :
    Ends (if args.isEmpty then Pure.pure usual >>= f else argumentAs kind view? args 0 >>= f)
      h post' raises := by
  apply ite
  · intro _
    exact hf usual
  · intro hargument
    refine argument_bind hargs hkind (hp ?_) fun a _ ↦ hf a
    rintro rfl
    cases accepts_of_argumentRefusal? hargs.accepted
    exact hargument rfl

end Ends

end Native

end TestDeclaration
