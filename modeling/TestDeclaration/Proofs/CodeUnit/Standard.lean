import TestDeclaration.Proofs.CodeUnit.Quiet

/-!
# The units of the interpreter are contained

Most methods of the core unit and of the sample unit are quiet, and their constructors make one
object of scalars. What is left are the methods of counters and points, which read the instance;
only counters write to it.
-/

namespace TestDeclaration

open Native Callable

variable {args : List Value}

/-- A scalar is a bare result. -/
theorem quiet_scalar (s : Scalar) : Quiet args Bare (pure (some (.scalar s))) := by
  apply Quiet.pure
  rintro _ ⟨⟩
  rfl

/-- A call of a static method is contained if its body is quiet. -/
theorem TypeDefinition.Contained.withStatic {d : TypeDefinition}
    (hd : d.Contained TypeName.IsDeclared) {name : String} {parameters : List TypeName}
    {body : Option Value → List Value → Native (Option Value)}
    (hp : parameters.any TypeName.takesObjects = false)
    (hq : ∀ target? args, Quiet args Bare (body target? args)) :
    (d.withMethod .static name parameters body).Contained TypeName.IsDeclared :=
  hd.withMethod (contained_of_quiet (by simpa using hp) (.inl rfl) hq)

/-! ### The core unit -/

namespace Core

/-- Answering with a scalar, or with an overflow, is quiet. -/
theorem quiet_checked {α : Type} {a? : Option α} {make : α → Scalar} :
    Quiet args Bare (do return some (.scalar (make (← orRaise a? .overflow)))) := by
  apply Quiet.bind (.orRaise rfl)
  intro a
  exact quiet_scalar (make a)

/-- A function of one argument with a scalar result is quiet. -/
theorem quiet_unary {α : Type} {kind : Primitive} {view? : Value → Option α}
    {result : α → Scalar} : Quiet args Bare (do
      let a ← argumentAs kind view? args 0
      return some (.scalar (result a))) :=
  .bind .argumentAs fun _ ↦ quiet_scalar _

/-- A function of two arguments with a scalar result is quiet. -/
theorem quiet_binary {α : Type} {kind : Primitive} {view? : Value → Option α}
    {result : α → α → Scalar} : Quiet args Bare (do
      let a ← argumentAs kind view? args 0
      let b ← argumentAs kind view? args 1
      return some (.scalar (result a b))) :=
  .bind .argumentAs fun _ ↦ .bind .argumentAs fun _ ↦ quiet_scalar _

private theorem quiet_abs (target? : Option Value) : Quiet args Bare (abs target? args) :=
  .bind .argumentAs fun _ ↦ quiet_checked

private theorem contained_mathType : mathType.Contained TypeName.IsDeclared :=
  (TypeDefinition.contained_new _).withStatic rfl (fun t _ ↦ quiet_abs t)
    |>.withStatic rfl (fun _ _ ↦ quiet_binary)
    |>.withStatic rfl (fun _ _ ↦ quiet_binary)
    |>.withStatic rfl (fun _ _ ↦ quiet_binary)
    |>.withStatic rfl (fun _ _ ↦ quiet_unary)

private theorem quiet_targetText (target? : Option Value) :
    Quiet args (fun _ ↦ True) (targetText target?) := by
  apply Quiet.bind (.orRaise rfl)
  intro target
  apply Quiet.bind (.orRaise rfl)
  intro s
  exact .pure trivial

private theorem quiet_substring (target? : Option Value) :
    Quiet args Bare (substring target? args) := by
  apply Quiet.bind (quiet_targetText target?)
  intro text
  apply Quiet.bind .argumentAs
  intro start
  apply Quiet.bind .argumentAs
  intro count
  apply Quiet.ite (.raise_bind rfl)
  exact Quiet.ite (.raise_bind rfl) (quiet_scalar _)

private theorem quiet_length (target? : Option Value) : Quiet args Bare (length target? args) :=
  .bind (quiet_targetText target?) fun _ ↦ quiet_checked

/-- A function of the string that it is called on, with a scalar result, is quiet. -/
theorem quiet_ofText {target? : Option Value} {result : List Char → Scalar} :
    Quiet args Bare (do
      let text ← targetText target?
      return some (.scalar (result text))) :=
  .bind (quiet_targetText target?) fun _ ↦ quiet_scalar _

private theorem quiet_contains (target? : Option Value) : Quiet args Bare (contains target? args) :=
  .bind .argumentAs fun _ ↦ .bind (quiet_targetText target?) fun _ ↦ quiet_scalar _

/-- A method of strings is contained if its body is quiet. -/
theorem contained_ofString {name : String} {parameters : List TypeName}
    {body : Option Value → List Value → Native (Option Value)}
    (hp : parameters.any TypeName.takesObjects = false)
    (hq : ∀ target? args, Quiet args Bare (body target? args)) :
    Callable.Contained TypeName.IsDeclared ⟨string, ⟨name, parameters, .target, body⟩⟩ :=
  contained_of_quiet (by simpa using hp) (.inr id) hq

private theorem contained_stringType : stringType.Contained TypeName.IsDeclared :=
  (TypeDefinition.contained_new _).withMethod (contained_ofString rfl fun t _ ↦ quiet_length t)
    |>.withMethod (contained_ofString rfl fun _ _ ↦ quiet_ofText)
    |>.withMethod (contained_ofString rfl fun _ _ ↦ quiet_ofText)
    |>.withMethod (contained_ofString rfl fun t _ ↦ quiet_contains t)
    |>.withMethod (contained_ofString rfl fun t _ ↦ quiet_substring t)

private theorem makes_constructFault (k : Fault.Kind) :
    Makes args (constructFault k.typeName args) := by
  have hk : k.typeName.IsDeclared := trivial
  have hcreate : ∀ message,
      Makes args (create k.typeName (Fault.fields ⟨k.typeName, message, []⟩)) :=
    fun message ↦ .create hk (by simp [Fault.fields, Value.string])
  apply Makes.ite
  · exact .bind (.pure trivial) hcreate
  · exact .bind .argumentAs hcreate

private theorem contained_faultType (k : Fault.Kind) :
    (faultType k).Contained TypeName.IsDeclared :=
  (TypeDefinition.contained_new _).withConstructor
      (Constructor.contained_of_makes (by simp) fun _ ↦ makes_constructFault k)
    |>.withConstructor
      (Constructor.contained_of_makes (by simp [string, TypeName.takesObjects]) fun _ ↦
        makes_constructFault k)

/-- The core unit is contained. -/
theorem contained_unit : unit.Contained TypeName.IsDeclared :=
  forall_definitions contained_mathType contained_stringType contained_faultType

end Core

/-! ### The sample unit -/

namespace Samples

open TestDeclaration.Core

private theorem quiet_intOperation (f : Int → Int → Int) (target? : Option Value) :
    Quiet args Bare (intOperation f target? args) :=
  .bind .argumentAs fun _ ↦ .bind .argumentAs fun _ ↦ quiet_checked

private theorem quiet_addLong (target? : Option Value) : Quiet args Bare (addLong target? args) :=
  .bind .argumentAs fun _ ↦ .bind .argumentAs fun _ ↦ quiet_checked

private theorem quiet_divide (target? : Option Value) : Quiet args Bare (divide target? args) := by
  apply Quiet.bind .argumentAs
  intro divisor
  apply Quiet.ite (.raise_bind rfl)
  exact .bind .argumentAs fun _ ↦ quiet_checked

private theorem contained_calculatorType : calculatorType.Contained TypeName.IsDeclared :=
  (TypeDefinition.contained_new _).withStatic rfl (fun t _ ↦ quiet_intOperation _ t)
    |>.withStatic rfl (fun t _ ↦ quiet_addLong t)
    |>.withStatic rfl (fun t _ ↦ quiet_intOperation _ t)
    |>.withStatic rfl (fun t _ ↦ quiet_intOperation _ t)
    |>.withStatic rfl (fun t _ ↦ quiet_divide t)
    |>.withStatic rfl (fun _ _ ↦ quiet_binary)

private theorem quiet_initial (target? : Option Value) : Quiet args Bare (initial target? args) :=
  .bind .argumentAs fun _ ↦ .bind (.orRaise rfl) fun _ ↦ quiet_scalar _

private theorem contained_greeterType : greeterType.Contained TypeName.IsDeclared :=
  (TypeDefinition.contained_new _).withStatic rfl (fun _ _ ↦ quiet_unary)
    |>.withStatic rfl (fun t _ ↦ quiet_initial t)

section Instances

private theorem isDeclared_counter : counter.IsDeclared := trivial

private theorem isDeclared_point : point.IsDeclared := trivial

private theorem makes_newCounter : Makes args (newCounter counter args) := by
  have hcreate : ∀ first, Makes args (create counter [("count", .int first)]) :=
    fun first ↦ .create isDeclared_counter (by simp [Value.int])
  apply Makes.ite
  · exact .bind (.pure trivial) hcreate
  · exact .bind .argumentAs hcreate

private theorem makes_makePoint (args : List Value) (x y : Int32) :
    Makes args (makePoint point x y) :=
  .create isDeclared_point (by simp [Value.int])

private theorem makes_newPoint : Makes args (newPoint point args) :=
  .bind .argumentAs fun x ↦ .bind .argumentAs fun y ↦ makes_makePoint args x y

variable {R : Pairing} {h k : Heap} {r s : Ref}

/-- A field of paired objects holds the same int, if any. -/
theorem asInt?_eq (hc : h.Corresponds TypeName.IsDeclared R k) (hrs : R r.address s.address)
    (name : String) : (h.get? r name).bind Value.asInt? = (k.get? s name).bind Value.asInt? := by
  have hget := hc.get? hrs name
  generalize h.get? r name = v? at hget ⊢
  generalize k.get? s name = w? at hget ⊢
  cases hget with
  | none => rfl
  | some hv =>
    cases hv with
    | scalar | type | object => rfl

private theorem agree_count (hc : h.Corresponds TypeName.IsDeclared R k)
    (hrs : R r.address s.address) :
    Agree (fun _ ↦ True) h k (count (some (.object r))) (count (some (.object s))) :=
  agree_read rfl (asInt?_eq hc hrs "count")

private theorem spares_count (target? : Option Value) :
    Spares (Value.IsAt target?) (count target?) := by
  apply Spares.of_keeps
  intro h
  cases target? with
  | none => rfl
  | some v =>
    have hperform := perform_read (fun h ↦ (v.asObject?.bind fun r ↦ h.get? r "count").bind
      Value.asInt?) (.argument "Counter has no count") h
    exact congrArg Prod.snd hperform

private theorem spares_setCount (target? : Option Value) (n : Int32) :
    Spares (Value.IsAt target?) (setCount target? n) := by
  intro h
  cases target? with
  | none => exact .refl _ h
  | some v =>
    cases v with
    | scalar | type => exact .refl _ h
    | object r => exact Heap.keepsExcept_set h "count" (.int n) ⟨r, rfl, rfl⟩

/-- Code that ends with giving paired counters the same count tracks. -/
theorem tracks_setCount (hc : h.Corresponds TypeName.IsDeclared R k)
    (hrs : R r.address s.address) (n : Int32) {result? : Option Value} (hresult : Bare result?) :
    Tracks TypeName.IsDeclared R (fun R ↦ Option.Rel (Value.Alike TypeName.IsDeclared R)) h k
      ((setCount (some (.object r)) n >>= fun _ ↦ pure result?).perform h)
      ((setCount (some (.object s)) n >>= fun _ ↦ pure result?).perform k) := by
  obtain ⟨hR, hc'⟩ := hc.set hrs "count" (.scalar (.int n))
  exact ⟨R, hR, hc', .ok (alike_of_bare hresult)⟩

/-- Incrementing a counter changes nothing but the counter. -/
theorem contained_increment :
    Callable.Contained TypeName.IsDeclared ⟨counter, ⟨"Increment", [], .target, increment⟩⟩ := by
  apply contained_of_instance (fun p hp ↦ absurd hp List.not_mem_nil) rfl isDeclared_counter
  · intro target? args
    apply (spares_count target?).bind
    intro n
    apply Spares.bind (.orRaise _ _)
    intro following
    exact (spares_setCount target? following).bind fun _ ↦ .pure _
  · intro R h k r s args hc hrs hargs
    apply (agree_count hc hrs).bind_tracks hc
    intro n _
    apply (Quiet.orRaise rfl).agrees hargs h k |>.bind_tracks hc
    intro following _
    exact tracks_setCount hc hrs following (by rintro _ ⟨⟩; rfl)

private theorem contained_getCount :
    Callable.Contained TypeName.IsDeclared ⟨counter, ⟨"Get", [], .target, getCount⟩⟩ := by
  apply contained_of_instance (fun p hp ↦ absurd hp List.not_mem_nil) rfl isDeclared_counter
  · intro target? args
    exact (spares_count target?).bind fun _ ↦ .pure _
  · intro R h k r s args hc hrs hargs
    apply (agree_count hc hrs).bind_tracks hc
    intro n _
    exact ⟨R, .refl R h k, hc, .ok (.some (.scalar (.int n)))⟩

private theorem contained_reset :
    Callable.Contained TypeName.IsDeclared ⟨counter, ⟨"Reset", [], .target, reset⟩⟩ := by
  apply contained_of_instance (fun p hp ↦ absurd hp List.not_mem_nil) rfl isDeclared_counter
  · intro target? args
    exact (spares_setCount target? 0).bind fun _ ↦ .pure _
  · intro R h k r s args hc hrs hargs
    exact tracks_setCount hc hrs 0 (by rintro _ ⟨⟩)

private theorem contained_counterType : counterType.Contained TypeName.IsDeclared :=
  (TypeDefinition.contained_new _).withConstructor
      (Constructor.contained_of_makes (by simp) fun _ ↦ makes_newCounter)
    |>.withConstructor
      (Constructor.contained_of_makes (by simp [int, TypeName.takesObjects]) fun _ ↦
        makes_newCounter)
    |>.withMethod contained_increment
    |>.withMethod contained_getCount
    |>.withMethod contained_reset

private theorem spares_coordinate {own : Nat → Prop} (r : Ref) (name : String) :
    Spares own (coordinate r name) := by
  apply Spares.of_keeps
  intro h
  exact congrArg Prod.snd (perform_read (fun h ↦ (h.get? r name).bind Value.asInt?) _ h)

private theorem spares_coordinates (target? : Option Value) :
    Spares (Value.IsAt target?) (coordinates target?) := by
  apply Spares.bind (.orRaise _ _)
  intro target
  apply Spares.bind (.orRaise _ _)
  intro r
  apply (spares_coordinate r "x").bind
  intro x
  exact (spares_coordinate r "y").bind fun _ ↦ .pure _

private theorem agree_coordinate (hc : h.Corresponds TypeName.IsDeclared R k)
    (hrs : R r.address s.address) (name : String) :
    Agree (fun _ ↦ True) h k (coordinate r name) (coordinate s name) :=
  agree_read rfl (asInt?_eq hc hrs name)

private theorem agree_coordinates (hc : h.Corresponds TypeName.IsDeclared R k)
    (hrs : R r.address s.address) :
    Agree (fun _ ↦ True) h k (coordinates (some (.object r))) (coordinates (some (.object s))) := by
  have hpair : Agree (fun _ ↦ True) h k
      (do let x ← coordinate r "x"; let y ← coordinate r "y"; return (x, y))
      (do let x ← coordinate s "x"; let y ← coordinate s "y"; return (x, y)) := by
    apply (agree_coordinate hc hrs "x").bind
    intro x _
    apply (agree_coordinate hc hrs "y").bind
    intro y _
    exact ⟨.ok (x, y), .ok trivial, rfl, rfl⟩
  exact hpair

private theorem contained_distance :
    Callable.Contained TypeName.IsDeclared ⟨point, ⟨"Distance", [], .target, distance⟩⟩ := by
  apply contained_of_instance (fun p hp ↦ absurd hp List.not_mem_nil) rfl isDeclared_point
  · intro target? args
    exact (spares_coordinates target?).bind fun _ ↦ .pure _
  · intro R h k r s args hc hrs hargs
    apply (agree_coordinates hc hrs).bind_tracks hc
    intro p _
    exact ⟨R, .refl R h k, hc, .ok (.some (.scalar _))⟩

private theorem contained_translate : Callable.Contained TypeName.IsDeclared
    ⟨point, ⟨"Translate", [int, int], .target, translate⟩⟩ := by
  apply contained_of_instance (by simp [int, TypeName.takesObjects]) rfl isDeclared_point
  · intro target? args
    have hargument : ∀ i, Quiet args (fun _ ↦ True) (intArgument args i) := fun _ ↦ .argumentAs
    apply (spares_coordinates target?).bind
    intro p
    apply Spares.bind (.of_keeps (hargument 0).keeps)
    intro dx
    apply Spares.bind (.orRaise _ _)
    intro x
    apply Spares.bind (.of_keeps (hargument 1).keeps)
    intro dy
    apply Spares.bind (.orRaise _ _)
    intro y
    have hmake : Spares (Value.IsAt target?) (makePoint point x y) := by
      intro h
      exact ((makes_makePoint args x y).keeps h).mono fun _ _ ↦ False.elim
    exact hmake.bind fun _ ↦ .pure _
  · intro R h k r s args hc hrs hargs
    apply (agree_coordinates hc hrs).bind_tracks hc
    intro p _
    apply (Quiet.argumentAs.agrees hargs h k).bind_tracks hc
    intro dx _
    apply ((Quiet.orRaise rfl).agrees hargs h k).bind_tracks hc
    intro x _
    apply (Quiet.argumentAs.agrees hargs h k).bind_tracks hc
    intro dy _
    apply ((Quiet.orRaise rfl).agrees hargs h k).bind_tracks hc
    intro y _
    exact (makes_makePoint args x y).tracks_some hargs hc

private theorem contained_pointType : pointType.Contained TypeName.IsDeclared :=
  (TypeDefinition.contained_new _).withConstructor
      (Constructor.contained_of_makes (by simp [int, TypeName.takesObjects]) fun _ ↦ makes_newPoint)
    |>.withMethod contained_translate
    |>.withMethod contained_distance

end Instances

/-- The sample unit is contained. -/
theorem contained_unit : unit.Contained TypeName.IsDeclared :=
  forall_definitions contained_calculatorType contained_counterType contained_pointType
    contained_greeterType

end Samples

/-- The library that every source starts with is contained. -/
theorem Library.contained_initial : initial.Contained TypeName.IsDeclared := by
  intro u hu
  rw [List.mem_singleton.mp hu]
  exact Core.contained_unit

/-- The standard loader finds the sample unit only. -/
theorem Loader.eq_of_standard {path : String} {u : CodeUnit} (hu : standard path = .ok u) :
    u = Samples.unit := by
  unfold standard ofTable at hu
  split at hu
  · next unit hunit =>
    cases hu
    rw [List.lookup_cons] at hunit
    split at hunit <;> cases hunit
    rfl
  · cases hu

/-- All units of the standard loader are contained. -/
theorem Loader.contained_standard {path : String} {u : CodeUnit}
    (hu : standard path = .ok u) : u.Contained TypeName.IsDeclared := by
  rw [eq_of_standard hu]
  exact Samples.contained_unit

end TestDeclaration
