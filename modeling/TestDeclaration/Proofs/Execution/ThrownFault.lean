import TestDeclaration.Proofs.Execution.Strength
import TestDeclaration.Proofs.Plan.Meaning

/-!
# Expected faults

The fault that a source expects is made by a constructor call and the fault that is compared with it
is raised by a target, so their objects come about in different ways. An expected fault has its
message as its only field. Exact equality therefore leaves no room for further fields, and
equivalence asks for the message alone: it is the first field, whatever the names of the others.
-/

namespace TestDeclaration

open Comparison Grammar

variable {h k : Heap} {r : Ref} {f : Fault} {m : String}

/-! ### The objects of faults -/

/-- An object with fields is not the next one to be made. -/
theorem Heap.ne_alloc_of_fields_ne_nil (hr : h.fields r ≠ []) (type : TypeName)
    (fields : Fields) : r ≠ (h.alloc type fields).1 := by
  rintro rfl
  exact absurd (lt_size_of_fields_ne_nil hr) (Nat.lt_irrefl _)

namespace Fault

private theorem fields_alloc (f : Fault) (h : Heap) :
    (f.alloc h).2.fields (f.alloc h).1 = f.fields :=
  Heap.fields_alloc h f.type f.fields

/-- Making the object of a fault keeps the objects that have fields. -/
theorem fields_alloc_of_ne_nil (f : Fault) (hr : h.fields r ≠ []) :
    (f.alloc h).2.fields r = h.fields r := by
  have hkeeps : h.Keeps (f.alloc h).2 := Heap.keepsExcept_alloc _ h f.type f.fields
  exact hkeeps.fields_eq (Heap.lt_size_of_fields_ne_nil hr)

/-- The first field of that name has the message. -/
theorem get?_fields_message (f : Fault) :
    f.fields.get? "message" = some (.string f.message) := rfl

/-- What is read as the message of the object of a fault is its message. -/
theorem message_alloc (f : Fault) (h : Heap) :
    ((f.alloc h).2.get? (f.alloc h).1 "message").map (Value.text (f.alloc h).2) =
      some f.message := by
  rw [Heap.get?, fields_alloc, get?_fields_message]
  simp [Value.text, Value.textTo, Value.string, Scalar.text]

end Fault

/-! ### Comparing faults -/

namespace Comparison

variable {s t : String} {n : Nat}

private theorem exactWithin_string :
    exactWithin h (n + 1) (.string s) (.string t) = .ok true ↔ s = t := by
  simp [Value.string, exactWithin, Scalar.same]

private theorem equivalentWithin_string :
    equivalentWithin h (n + 1) (.string s) (.string t) = .ok true ↔ s = t := by
  simp [Value.string, equivalentWithin, Value.operand?, Scalar.operand?, Scalar.same]

end Comparison

namespace Expectation

variable (hr : h.fields r = [("message", .string m)])

include hr

/-- Exactly a fault without further fields is a fault of its type with its message and without
further fields. -/
theorem accepts_thrown_exactly : accepts h ⟨.thrown, .exactly (.object r)⟩ (.thrown f) ↔
    f.type = r.type ∧ f.message = m ∧ f.extra = [] := by
  have hne : h.fields r ≠ [] := by simp [hr]
  have hother : r ≠ (f.alloc h).1 := Heap.ne_alloc_of_fields_ne_nil hne f.type f.fields
  have hfieldwise : Fieldwise (fun v w ↦ exactWithin (f.alloc h).2 maxDepth v w = .ok true)
      ((f.alloc h).2.fields r) ((f.alloc h).2.fields (f.alloc h).1) ↔
        f.message = m ∧ f.extra = [] := by
    rw [f.fields_alloc_of_ne_nil hne, hr, f.fields_alloc, Fieldwise, Fault.fields,
      List.forall₂_cons, List.forall₂_nil_left_iff, maxDepth, exactWithin_string,
      and_iff_right rfl, eq_comm]
  show (Criterion.exactly (.object r)).accepts (f.alloc h).2 (.object (f.alloc h).1) ↔ _
  rw [Criterion.accepts_exactly_iff, exactlyEqual, exactWithin_eq_true_iff, ← hfieldwise]
  constructor
  · rintro (_ | _ | _ | ⟨htype, hfields⟩)
    · exact absurd rfl hother
    · exact ⟨htype.symm, hfields⟩
  · rintro ⟨htype, hfields⟩
    exact .object htype.symm hfields

/-- An equivalent of a fault without further fields is a fault with its message. -/
theorem accepts_thrown_equivalentTo :
    accepts h ⟨.thrown, .equivalentTo (.object r)⟩ (.thrown f) ↔ f.message = m := by
  have hne : h.fields r ≠ [] := by simp [hr]
  have hother : r ≠ (f.alloc h).1 := Heap.ne_alloc_of_fields_ne_nil hne f.type f.fields
  have hoffers : Offers (fun v w ↦ equivalentWithin (f.alloc h).2 maxDepth v w = .ok true)
      ((f.alloc h).2.fields (f.alloc h).1) ((f.alloc h).2.fields r) ↔ m = f.message := by
    rw [f.fields_alloc_of_ne_nil hne, hr, f.fields_alloc, maxDepth]
    simp [Offers, f.get?_fields_message, equivalentWithin_string]
  show (Criterion.equivalentTo (.object r)).accepts (f.alloc h).2 (.object (f.alloc h).1) ↔ _
  rw [Criterion.accepts_equivalentTo_iff, equivalent, equivalentWithin_eq_true_iff,
    @eq_comm _ f.message, ← hoffers]
  constructor
  · rintro (⟨hnumber, -⟩ | _ | _ | _ | hfields)
    · cases hnumber
    · exact absurd rfl hother
    · exact hfields
  · exact .object

omit hr

/-- A fault of some type is a fault of that type. -/
theorem accepts_thrown_ofType {t : TypeName} :
    accepts h ⟨.thrown, .ofType t⟩ (.thrown f) ↔ f.type = t := by
  show ((f.alloc h).1.type == t) = true ↔ _
  rw [beq_iff_eq]
  rfl

end Expectation

/-! ### Constructor calls -/

namespace Grammar

/-- A constructor call of a fault type with a message. Without one it has the default message. -/
inductive CallsFault (s : Scope) (kind : Fault.Kind) : Term → String → Prop where
  | message {type? : Option String} {trailing : Bool} (m : String) :
      s.created? type? = some kind.typeName →
      CallsFault s kind (.create type? [.literal (.string m)] trailing) m
  | default {type? : Option String} {trailing : Bool} : s.created? type? = some kind.typeName →
      CallsFault s kind (.create type? [] trailing) (Fault.defaultMessage kind.name)

/-- A value was made from a term, and if it is an object, it still has the fields it was made
with. -/
inductive MadeFrom (s : Scope) (t : Term) (k : Heap) (v : Value) : Prop where
  | intro {h h' : Heap} : MakesAll s [t] h [v] h' →
      (∀ r, v = .object r → k.fields r = h'.fields r) → MadeFrom s t k v

namespace CallsFault

variable {units : List CodeUnit} {namespaces : List String} {owner : TypeName}
  {kind : Fault.Kind} {t : Term} {v : Value} {h' : Heap}

/-- With the core unit in front, fault types have the standard constructors. -/
theorem constructor? (units : List CodeUnit) (kind : Fault.Kind) :
    Library.constructor? ⟨Core.unit :: units⟩ kind.typeName [] =
        some ⟨kind.typeName, [], Core.constructFault⟩ ∧
      Library.constructor? ⟨Core.unit :: units⟩ kind.typeName [Core.string] =
        some ⟨kind.typeName, [Core.string], Core.constructFault⟩ := by
  cases kind <;> exact ⟨rfl, rfl⟩

/-- With the core unit in front, a constructor call of a fault type makes the object of the fault
with the message. -/
theorem makesAll_iff (ht : CallsFault ⟨⟨Core.unit :: units⟩, namespaces, owner⟩ kind t m) :
    MakesAll ⟨⟨Core.unit :: units⟩, namespaces, owner⟩ [t] h [v] h' ↔
      v = .object (Fault.alloc (.new kind.name m) h).1 ∧
        h' = (Fault.alloc (.new kind.name m) h).2 := by
  obtain ⟨hdefault, hmessage⟩ := constructor? units kind
  constructor
  · rintro (_ | ⟨hdenotes, heval, hnil⟩)
    cases hnil
    cases ht with
    | message m ht =>
      obtain - | - | ⟨htype, hargs, hconstructor⟩ := hdenotes
      cases ht.symm.trans htype
      obtain - | ⟨hliteral, hvalue, hnil⟩ := hargs
      cases hnil
      cases hliteral
      cases hvalue
      cases hmessage.symm.trans hconstructor
      cases heval
      exact ⟨rfl, rfl⟩
    | default ht =>
      obtain - | - | ⟨htype, hargs, hconstructor⟩ := hdenotes
      cases ht.symm.trans htype
      cases hargs
      cases hdefault.symm.trans hconstructor
      cases heval
      exact ⟨rfl, rfl⟩
  · rintro ⟨rfl, rfl⟩
    cases ht with
    | message m ht =>
      exact .cons (.create ht (.cons .literal rfl .nil) hmessage) rfl .nil
    | default ht => exact .cons (.create ht .nil hdefault) rfl .nil

/-- What a constructor call of a fault type has made is an object of that type whose only field is
the message. -/
theorem exists_of_madeFrom (ht : CallsFault ⟨⟨Core.unit :: units⟩, namespaces, owner⟩ kind t m)
    (hv : MadeFrom ⟨⟨Core.unit :: units⟩, namespaces, owner⟩ t k v) :
    ∃ r, v = .object r ∧ r.type = kind.typeName ∧ k.fields r = [("message", .string m)] := by
  obtain ⟨hmakes, hfields⟩ := hv
  obtain ⟨rfl, rfl⟩ := ht.makesAll_iff.mp hmakes
  exact ⟨_, rfl, rfl, (hfields _ rfl).trans (Fault.fields_alloc _ _)⟩

end CallsFault

end Grammar

/-- The runtime raises a fault of its own: for a division by zero, for an overflow, or for a result
that is missing. -/
inductive Fault.RaisedByRuntime : Fault.Kind → Outcome → Prop where
  | divideByZero : RaisedByRuntime .divideByZero (.thrown .divideByZero)
  | overflow : RaisedByRuntime .overflow (.thrown .overflow)
  | nullReturn : RaisedByRuntime .nullReturn (.ofResult (.ok none))

/-- A fault of the runtime has the type and the default message of its kind, and no further
fields. -/
theorem Fault.RaisedByRuntime.eq_usual {kind : Fault.Kind} {o : Outcome}
    (ho : RaisedByRuntime kind o) : o = .thrown (.usual kind) := by
  cases ho with
  | divideByZero | overflow | nullReturn => rfl

/-- An expected fault takes exactly the faults of its type and message without further fields,
loosely those of its message, and by type those of its type. -/
theorem fault_expectations_exact (units : List CodeUnit) (namespaces : List String)
    (owner : TypeName) :
    let s : Scope := ⟨⟨Core.unit :: units⟩, namespaces, owner⟩
    (∀ kind t m, CallsFault s kind t m →
      (∀ h, ∃ v h', MakesAll s [t] h [v] h') ∧
      ∀ k v, MadeFrom s t k v → ∀ f,
        (Expectation.accepts k ⟨.thrown, .exactly v⟩ (.thrown f) ↔
          f.type = kind.typeName ∧ f.message = m ∧ f.extra = []) ∧
        (Expectation.accepts k ⟨.thrown, .equivalentTo v⟩ (.thrown f) ↔ f.message = m)) ∧
    (∀ (kind : Fault.Kind) k f,
      Expectation.accepts k ⟨.thrown, .ofType kind.typeName⟩ (.thrown f) ↔
        f.type = kind.typeName) ∧
    (∀ (f : Fault) (h : Heap), ((f.alloc h).2.get? (f.alloc h).1 "message").map
      (Value.text (f.alloc h).2) = some f.message) ∧
    ∀ kind o, Fault.RaisedByRuntime kind o → ∀ type? trailing,
      s.created? type? = some kind.typeName → ∀ k v,
        MadeFrom s (.create type? [] trailing) k v →
        Expectation.accepts k ⟨.thrown, .exactly v⟩ o ∧
        Expectation.accepts k ⟨.thrown, .equivalentTo v⟩ o ∧
        Expectation.accepts k ⟨.thrown, .ofType kind.typeName⟩ o := by
  intro s
  have hmade : ∀ kind t m, CallsFault s kind t m → ∀ k v, MadeFrom s t k v → ∀ f,
      (Expectation.accepts k ⟨.thrown, .exactly v⟩ (.thrown f) ↔
        f.type = kind.typeName ∧ f.message = m ∧ f.extra = []) ∧
      (Expectation.accepts k ⟨.thrown, .equivalentTo v⟩ (.thrown f) ↔ f.message = m) := by
    intro kind t m ht k v hv f
    obtain ⟨r, rfl, htype, hfields⟩ := ht.exists_of_madeFrom hv
    rw [← htype]
    exact ⟨Expectation.accepts_thrown_exactly hfields,
      Expectation.accepts_thrown_equivalentTo hfields⟩
  refine ⟨fun kind t m ht ↦ ⟨fun h ↦ ?_, hmade kind t m ht⟩, fun kind k f ↦ ?_,
    Fault.message_alloc, ?_⟩
  · exact ⟨_, _, ht.makesAll_iff.mpr ⟨rfl, rfl⟩⟩
  · exact Expectation.accepts_thrown_ofType
  · intro kind o ho type? trailing hcreated k v hv
    obtain ⟨hexactly, hequivalent⟩ := hmade kind _ _ (.default hcreated) k v hv (.usual kind)
    rw [ho.eq_usual]
    exact ⟨hexactly.mpr ⟨rfl, rfl, rfl⟩, hequivalent.mpr rfl,
      Expectation.accepts_thrown_ofType.mpr rfl⟩

/-- A raised fault of the expected type whose further field repeats the name of the message, and
the overflow of the runtime. -/
theorem fault_expectations_exact_with_two_messages :
    let s : Scope := ⟨⟨[Core.unit, Samples.unit]⟩, ["", "Samples"], Fault.Kind.overflow.typeName⟩
    let f : Fault := ⟨Fault.Kind.argument.typeName, "no", [("message", .string "yes")]⟩
    CallsFault s .argument (.create (some "ArgumentFault") [.literal (.string "no")] false) "no" ∧
    s.created? none = some Fault.Kind.overflow.typeName ∧
    (∃ k v, MadeFrom s (.create (some "ArgumentFault") [.literal (.string "no")] false) k v ∧
      ¬ Expectation.accepts k ⟨.thrown, .exactly v⟩ (.thrown f) ∧
      Expectation.accepts k ⟨.thrown, .equivalentTo v⟩ (.thrown f)) ∧
    ∃ k v, MadeFrom s (.create none [] false) k v ∧
      Expectation.accepts k ⟨.thrown, .exactly v⟩ (.thrown .overflow) := by
  intro s f
  have hargument : CallsFault s .argument
      (.create (some "ArgumentFault") [.literal (.string "no")] false) "no" := .message "no" rfl
  have hoverflow : CallsFault s .overflow (.create none [] false) _ := .default rfl
  obtain ⟨hcalls, -, -, hruntime⟩ := fault_expectations_exact [Samples.unit] ["", "Samples"]
    Fault.Kind.overflow.typeName
  refine ⟨hargument, rfl, ?_, ?_⟩
  · obtain ⟨hmakes, hmeans⟩ := hcalls _ _ _ hargument
    obtain ⟨v, k, hv⟩ := hmakes .empty
    have hmade : MadeFrom s _ k v := .intro hv fun _ _ ↦ rfl
    obtain ⟨hexactly, hequivalent⟩ := hmeans k v hmade f
    exact ⟨k, v, hmade, fun h ↦ absurd (hexactly.mp h).2.2 (List.cons_ne_nil _ _),
      hequivalent.mpr rfl⟩
  · obtain ⟨v, k, hv⟩ := (hcalls _ _ _ hoverflow).1 .empty
    have hmade : MadeFrom s _ k v := .intro hv fun _ _ ↦ rfl
    exact ⟨k, v, hmade, (hruntime _ _ .overflow none false rfl k v hmade).1⟩

end TestDeclaration
