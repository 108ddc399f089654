import TestDeclaration.Execution
import TestDeclaration.Proofs.CodeUnit.Endings
import TestDeclaration.Proofs.CodeUnit.Standard

/-!
# The faults of the standard units

Every constructor of the core unit and of the sample unit makes an object whenever its arguments
fit. Every method gives a value or one of a few faults; `Callable.Raises` lists which fault can come
from which method, and when. The checks that native code makes of its arguments, its instance and
the fields of its instance are passed whenever the call itself is not refused.
-/

namespace TestDeclaration

open Native

/-! ### Instances -/

/-- A proper value that has all fields of its type, if it is a counter or a point. -/
structure Value.Sound (h : Heap) (v : Value) : Prop where
  proper : v.Proper
  count : ∀ r, v = .object r → r.type = Samples.counter →
    ∃ n, h.get? r "count" = some (.int n)
  coordinates : ∀ r, v = .object r → r.type = Samples.point →
    ∃ x y, h.get? r "x" = some (.int x) ∧ h.get? r "y" = some (.int y)

/-- A value without identity is sound. -/
theorem Value.sound_of_asObject? {h : Heap} {v : Value} (hv : v.asObject? = none) :
    v.Sound h := by
  have hne : ∀ r, v ≠ .object r := by
    rintro r rfl
    cases hv
  exact ⟨fun r hr ↦ absurd hr (hne r), fun r hr ↦ absurd hr (hne r),
    fun r hr ↦ absurd hr (hne r)⟩

/-- A new object of a declared type is sound if its fields are those of its type. -/
theorem Value.sound_alloc {h : Heap} {type : TypeName} {fields : Fields} (ht : type.IsDeclared)
    (hcount : type = Samples.counter → ∃ n, fields.get? "count" = some (.int n))
    (hcoordinates : type = Samples.point →
      ∃ x y, fields.get? "x" = some (.int x) ∧ fields.get? "y" = some (.int y)) :
    (Value.object (h.alloc type fields).1).Sound (h.alloc type fields).2 where
  proper := by
    rintro r ⟨⟩
    exact ht
  count := by
    rintro r ⟨⟩ hr
    rw [Heap.get?, Heap.fields_alloc]
    exact hcount hr
  coordinates := by
    rintro r ⟨⟩ hr
    rw [Heap.get?, Heap.get?, Heap.fields_alloc]
    exact hcoordinates hr

/-! ### Calls -/

/-- The argument faults of a method of the standard units, called on an instance with some
arguments. -/
inductive Callable.ArgumentFault (c : Callable) (target? : Option Value) (args : List Value) :
    Fault → Prop where
  /-- The arguments are refused. -/
  | refused {refusal : Refusal} : argumentRefusal? c.method.parameters args = some refusal →
      ArgumentFault c target? args refusal.fault
  /-- A part of a string starts or extends to the left of it. -/
  | negative {start count : Int32} : c.owner = Core.string → c.method.name = "Substring" →
      args[0]? = some (.int start) → args[1]? = some (.int count) → start < 0 ∨ count < 0 →
      ArgumentFault c target? args (.argument "Start index and length cannot be negative")
  /-- A part of a string extends to the right of it. -/
  | outside {s : String} {start count : Int32} : c.owner = Core.string →
      c.method.name = "Substring" → target? = some (.string s) →
      args[0]? = some (.int start) → args[1]? = some (.int count) →
      (s.toList.length : Int) < start.toInt + count.toInt →
      ArgumentFault c target? args
        (.argument "Index and length must refer to a location within the string")
  /-- An empty name has no initial. -/
  | emptyName : c.owner = Samples.greeter → c.method.name = "Initial" →
      args[0]? = some (.string "") →
      ArgumentFault c target? args (.argument "Name cannot be empty")

/-- The faults of a method of the standard units, called on an instance with some arguments. -/
inductive Callable.Raises (c : Callable) (target? : Option Value) (args : List Value) :
    Fault → Prop where
  | argument {f : Fault} : c.ArgumentFault target? args f → Raises c target? args f
  /-- The instance is refused. -/
  | target {refusal : Refusal} : c.targetRefusal? target? = some refusal →
      Raises c target? args refusal.fault
  /-- A result is outside the range of its type. -/
  | overflow : Raises c target? args .overflow
  /-- An int is divided by zero. -/
  | divideByZero : c.owner = Samples.calculator → c.method.name = "Divide" →
      args[1]? = some (.int 0) → Raises c target? args .divideByZero
  /-- A counter is reset, which gives no value. -/
  | nullReturn : c.owner = Samples.counter → c.method.name = "Reset" →
      Raises c target? args .nullReturn

/-- Code of a method gives a value, or a fault of the method. -/
def Callable.Answers (c : Callable) (target? : Option Value) (args : List Value) (h : Heap) :
    Native (Option Value) → Prop := fun code ↦
  code.Ends h (fun result? _ ↦ result? = none → c.Raises target? args .nullReturn)
    (c.Raises target? args)

/-- Calls of a method that are not refused give values and faults of the method. -/
def Callable.Safe (c : Callable) : Prop :=
  ∀ {target? : Option Value} {args : List Value} {h : Heap}, Fits c.method.parameters args →
    c.Sees target? → (∀ v ∈ target?, v.Sound h) →
    c.Answers target? args h (c.method.body target? args)

/-- Calls of a constructor that are not refused make a sound object. -/
def Constructor.Safe (c : Constructor) : Prop :=
  ∀ {args : List Value} {h : Heap}, Fits c.parameters args →
    (c.body c.owner args).Ends h (fun v k ↦ v.Sound k ∧ ∃ r, v = .object r) fun _ ↦ False

/-- All constructors and methods of a type are safe. -/
structure TypeDefinition.Safe (d : TypeDefinition) : Prop where
  constructors : ∀ c ∈ d.constructors, c.Safe
  methods : ∀ m ∈ d.methods, Callable.Safe ⟨d.type, m⟩

namespace TypeDefinition

private theorem safe_new (type : TypeName) : (new type).Safe :=
  ⟨fun _ hc ↦ absurd hc List.not_mem_nil, fun _ hm ↦ absurd hm List.not_mem_nil⟩

variable {d : TypeDefinition}

private theorem Safe.withConstructor (hd : d.Safe) {parameters : List TypeName}
    {body : TypeName → List Value → Native Value}
    (hb : Constructor.Safe ⟨d.type, parameters, body⟩) :
    (d.withConstructor parameters body).Safe where
  constructors := List.forall_mem_append.mpr ⟨hd.constructors, List.forall_mem_singleton.mpr hb⟩
  methods := hd.methods

private theorem Safe.withMethod (hd : d.Safe) {receiver : Receiver} {name : String}
    {parameters : List TypeName} {body : Option Value → List Value → Native (Option Value)}
    (hb : Callable.Safe ⟨d.type, ⟨name, parameters, receiver, body⟩⟩) :
    (d.withMethod receiver name parameters body).Safe where
  constructors := hd.constructors
  methods := List.forall_mem_append.mpr ⟨hd.methods, List.forall_mem_singleton.mpr hb⟩

end TypeDefinition

/-! ### Results -/

namespace Callable.Answers

variable {c : Callable} {target? : Option Value} {args : List Value} {h : Heap}

/-- A value is an answer. -/
theorem value (v : Value) : c.Answers target? args h (pure (some v)) := nofun

/-- A scalar that may be missing is an answer or an overflow. -/
theorem checked {α : Type} {a? : Option α} {make : α → Scalar} :
    c.Answers target? args h (do return some (.scalar (make (← orRaise a? .overflow)))) :=
  Ends.orRaise_bind (fun _ ↦ .overflow) fun a _ ↦ value (.scalar (make a))

end Callable.Answers

open Callable

variable {β : Type} {h : Heap} {raises : Fault → Prop} {post : β → Heap → Prop}
  {target? : Option Value} {args : List Value}

/-! ### The core unit -/

namespace Core

/-- A static function of one argument only gives values. -/
theorem safe_unary {α : Type} {type : TypeName} {name : String} {kind : Primitive}
    {value : α → Value} {view? : Value → Option α} (hkind : Views kind value view?)
    {result : α → Value} : Callable.Safe ⟨type, ⟨name, [.primitive kind], .static, fun _ args ↦ do
      let a ← argumentAs kind view? args 0
      return some (result a)⟩⟩ :=
  fun hargs _ _ ↦ Ends.argument_bind hargs hkind rfl fun _ _ ↦ Answers.value _

/-- A static function of two arguments of one kind only gives values. -/
theorem safe_binary {α : Type} {type : TypeName} {name : String} {kind : Primitive}
    {value : α → Value} {view? : Value → Option α} (hkind : Views kind value view?)
    {result : α → α → Value} :
    Callable.Safe ⟨type, ⟨name, [.primitive kind, .primitive kind], .static, fun _ args ↦ do
      let a ← argumentAs kind view? args 0
      let b ← argumentAs kind view? args 1
      return some (result a b)⟩⟩ :=
  fun hargs _ _ ↦ Ends.argument_bind hargs hkind rfl fun _ _ ↦
    Ends.argument_bind hargs hkind rfl fun _ _ ↦ Answers.value _

private theorem safe_abs : Callable.Safe ⟨.declared "Math", ⟨"Abs", [int], .static, abs⟩⟩ :=
  fun hargs _ _ ↦ Ends.argument_bind hargs .int rfl fun _ _ ↦ Answers.checked

private theorem safe_mathType : mathType.Safe :=
  (TypeDefinition.safe_new _).withMethod safe_abs
    |>.withMethod (safe_binary .int)
    |>.withMethod (safe_binary .int)
    |>.withMethod (safe_binary .double)
    |>.withMethod (safe_unary .double)

/-- What a string method sees as its instance is a string, and its text is read. -/
theorem targetText_bind {m : Method} (hreceiver : m.receiver = .target)
    (hsees : Callable.Sees ⟨string, m⟩ target?) (hsound : ∀ v ∈ target?, v.Sound h)
    {f : List Char → Native β}
    (hf : ∀ s, target? = some (.string s) → Ends (f s.toList) h post raises) :
    Ends (targetText target? >>= f) h post raises := by
  cases hsees with
  | static hstatic => cases hreceiver.symm.trans hstatic
  | @target v _ hv =>
    obtain ⟨s, rfl, hs⟩ := (hsound v rfl).proper.scalar hv nofun
    obtain ⟨text, htext⟩ := Views.string.exists_of_primitive hs
    rw [htext]
    exact hf text (congrArg some htext)

private theorem safe_length : Callable.Safe ⟨string, ⟨"Length", [], .target, length⟩⟩ :=
  fun _ hsees hsound ↦ targetText_bind rfl hsees hsound fun _ _ ↦ Answers.checked

/-- A function of the string that it is called on only gives values. -/
theorem safe_ofText {name : String} {result : List Char → Value} :
    Callable.Safe ⟨string, ⟨name, [], .target, fun target? _ ↦ do
      let text ← targetText target?
      return some (result text)⟩⟩ :=
  fun _ hsees hsound ↦ targetText_bind rfl hsees hsound fun _ _ ↦ Answers.value _

private theorem safe_contains : Callable.Safe ⟨string, ⟨"Contains", [string], .target, contains⟩⟩ :=
  fun hargs hsees hsound ↦ Ends.argument_bind hargs .string rfl fun _ _ ↦
    targetText_bind rfl hsees hsound fun _ _ ↦ Answers.value _

private theorem safe_substring :
    Callable.Safe ⟨string, ⟨"Substring", [int, int], .target, substring⟩⟩ := by
  intro target? args h hargs hsees hsound
  apply targetText_bind rfl hsees hsound
  intro s hs
  apply Ends.argument_bind hargs .int rfl
  intro start hstart
  apply Ends.argument_bind hargs .int rfl
  intro count hcount
  apply Ends.ite
  · intro hnegative
    exact Ends.raise_bind (.argument (.negative rfl rfl hstart hcount hnegative))
  · intro hnegative
    apply Ends.ite
    · intro houtside
      refine Ends.raise_bind (.argument (.outside rfl rfl hs hstart hcount ?_))
      simp only [not_or, Int32.not_lt, Int32.le_iff_toInt_le] at hnegative
      have hstart' : (0 : Int) ≤ start.toInt := hnegative.1
      have hcount' : (0 : Int) ≤ count.toInt := hnegative.2
      omega
    · intro _
      exact Answers.value _

private theorem safe_stringType : stringType.Safe :=
  (TypeDefinition.safe_new _).withMethod safe_length
    |>.withMethod safe_ofText
    |>.withMethod safe_ofText
    |>.withMethod safe_contains
    |>.withMethod safe_substring

/-- A fault type is none of the sample types. -/
theorem ne_typeName (k : Fault.Kind) :
    k.typeName ≠ Samples.counter ∧ k.typeName ≠ Samples.point := by
  cases k <;> decide

private theorem safe_constructFault (k : Fault.Kind) {parameters : List TypeName}
    (hp : parameters ≠ [] → parameters[0]? = some string) :
    Constructor.Safe ⟨k.typeName, parameters, constructFault⟩ := by
  intro args h hargs
  refine Ends.optional_bind hargs .string hp fun message ↦ Ends.create ⟨?_, _, rfl⟩
  have hne := ne_typeName k
  exact Value.sound_alloc trivial (fun hk ↦ absurd hk hne.1) fun hk ↦ absurd hk hne.2

private theorem safe_faultType (k : Fault.Kind) : (faultType k).Safe :=
  (TypeDefinition.safe_new _).withConstructor (safe_constructFault k fun h ↦ absurd rfl h)
    |>.withConstructor (safe_constructFault k fun _ ↦ rfl)

/-- All types of the core unit are safe. -/
theorem safe_definitions : ∀ d ∈ unit.definitions, d.Safe :=
  forall_definitions safe_mathType safe_stringType safe_faultType

end Core

/-! ### The sample unit -/

namespace Samples

open TestDeclaration.Core

private theorem safe_intOperation (name : String) (f : Int → Int → Int) :
    Callable.Safe ⟨calculator, ⟨name, [int, int], .static, intOperation f⟩⟩ :=
  fun hargs _ _ ↦ Ends.argument_bind hargs .int rfl fun _ _ ↦
    Ends.argument_bind hargs .int rfl fun _ _ ↦ Answers.checked

private theorem safe_addLong :
    Callable.Safe ⟨calculator, ⟨"Add", [long, long], .static, addLong⟩⟩ :=
  fun hargs _ _ ↦ Ends.argument_bind hargs .long rfl fun _ _ ↦
    Ends.argument_bind hargs .long rfl fun _ _ ↦ Answers.checked

private theorem safe_divide :
    Callable.Safe ⟨calculator, ⟨"Divide", [int, int], .static, divide⟩⟩ := by
  intro target? args h hargs _ _
  apply Ends.argument_bind hargs .int rfl
  intro divisor hdivisor
  apply Ends.ite
  · rintro rfl
    exact Ends.raise_bind (.divideByZero rfl rfl hdivisor)
  · intro _
    exact Ends.argument_bind hargs .int rfl fun _ _ ↦ Answers.checked

private theorem safe_calculatorType : calculatorType.Safe :=
  (TypeDefinition.safe_new _).withMethod (safe_intOperation _ _)
    |>.withMethod safe_addLong
    |>.withMethod (safe_intOperation _ _)
    |>.withMethod (safe_intOperation _ _)
    |>.withMethod safe_divide
    |>.withMethod (safe_binary .double)

private theorem safe_initial :
    Callable.Safe ⟨greeter, ⟨"Initial", [string], .static, initial⟩⟩ := by
  intro target? args h hargs _ _
  apply Ends.argument_bind hargs .string rfl
  intro name hname
  refine Ends.orRaise_bind (fun hfirst ↦ .argument (.emptyName rfl rfl ?_)) fun _ _ ↦
    Answers.value _
  rw [hname, String.toList_eq_nil_iff.mp (List.head?_eq_none_iff.mp hfirst)]

private theorem safe_greeterType : greeterType.Safe :=
  (TypeDefinition.safe_new _).withMethod (safe_unary .string) |>.withMethod safe_initial

private theorem counter_ne_point : counter ≠ point := by decide

private theorem safe_newCounter {parameters : List TypeName}
    (hp : parameters ≠ [] → parameters[0]? = some int) :
    Constructor.Safe ⟨counter, parameters, newCounter⟩ := by
  intro args h hargs
  refine Ends.optional_bind hargs .int hp fun first ↦ Ends.create ⟨?_, _, rfl⟩
  exact Value.sound_alloc trivial (fun _ ↦ ⟨first, rfl⟩) fun hpoint ↦ absurd hpoint counter_ne_point

/-- What a method of a declared type sees as its instance is an object of the type. -/
theorem object_of_sees {c : Callable} (hsees : c.Sees target?)
    (hreceiver : c.method.receiver = .target) (hdeclared : c.owner.IsDeclared) :
    ∃ r, target? = some (.object r) ∧ r.type = c.owner := by
  cases hsees with
  | static hstatic => cases hreceiver.symm.trans hstatic
  | @target v _ hv =>
    cases v with
    | object r => exact ⟨r, rfl, hv⟩
    | scalar | type =>
      rw [← hv] at hdeclared
      exact hdeclared.elim

/-- A field that holds an int is read. -/
theorem perform_field {r : Ref} {name : String} {n : Int32} (hn : h.get? r name = some (.int n))
    (e : Fault) :
    (do let h ← get; orRaise ((h.get? r name).bind Value.asInt?) e : Native Int32).perform h =
      (.ok n, h) := by
  rw [perform_read (fun h ↦ (h.get? r name).bind Value.asInt?), hn]
  rfl

/-- The count of a counter is read from its field. -/
theorem perform_count {r : Ref} {n : Int32} (hn : h.get? r "count" = some (.int n)) :
    (count (some (.object r))).perform h = (.ok n, h) :=
  perform_field hn _

private theorem safe_increment :
    Callable.Safe ⟨counter, ⟨"Increment", [], .target, increment⟩⟩ := by
  intro target? args h _ hsees hsound
  obtain ⟨r, rfl, hr⟩ := object_of_sees hsees rfl trivial
  obtain ⟨n, hn⟩ := (hsound _ rfl).count r rfl hr
  apply Ends.bind_of_perform (perform_count hn)
  apply Ends.orRaise_bind fun _ ↦ .overflow
  intro following _
  exact Ends.bind_of_perform rfl (Answers.value _)

private theorem safe_getCount : Callable.Safe ⟨counter, ⟨"Get", [], .target, getCount⟩⟩ := by
  intro target? args h _ hsees hsound
  obtain ⟨r, rfl, hr⟩ := object_of_sees hsees rfl trivial
  obtain ⟨n, hn⟩ := (hsound _ rfl).count r rfl hr
  exact Ends.bind_of_perform (perform_count hn) (Answers.value _)

private theorem safe_reset : Callable.Safe ⟨counter, ⟨"Reset", [], .target, reset⟩⟩ := by
  intro target? args h _ hsees _
  obtain ⟨r, rfl, -⟩ := object_of_sees hsees rfl trivial
  exact Ends.bind_of_perform rfl (Ends.pure fun _ ↦ .nullReturn rfl rfl)

private theorem safe_counterType : counterType.Safe :=
  (TypeDefinition.safe_new _).withConstructor (safe_newCounter fun h ↦ absurd rfl h)
    |>.withConstructor (safe_newCounter fun _ ↦ rfl)
    |>.withMethod safe_increment
    |>.withMethod safe_getCount
    |>.withMethod safe_reset

private theorem safe_newPoint : Constructor.Safe ⟨point, [int, int], newPoint⟩ := by
  intro args h hargs
  apply Ends.argument_bind hargs .int rfl
  intro x _
  apply Ends.argument_bind hargs .int rfl
  intro y _
  refine Ends.create ⟨Value.sound_alloc trivial ?_ fun _ ↦ ⟨x, y, rfl, rfl⟩, _, rfl⟩
  exact fun hcounter ↦ absurd hcounter.symm counter_ne_point

/-- The coordinates of a point are read from its fields. -/
theorem perform_coordinates {r : Ref} {x y : Int32} (hx : h.get? r "x" = some (.int x))
    (hy : h.get? r "y" = some (.int y)) :
    (coordinates (some (.object r))).perform h = (.ok (x, y), h) := by
  have hread : (do let x ← coordinate r "x"; let y ← coordinate r "y"; return (x, y) :
      Native (Int32 × Int32)).perform h = (.ok (x, y), h) := by
    simp only [perform_bind, coordinate, perform_field hx, perform_field hy]
    rfl
  exact hread

private theorem safe_translate :
    Callable.Safe ⟨point, ⟨"Translate", [int, int], .target, translate⟩⟩ := by
  intro target? args h hargs hsees hsound
  obtain ⟨r, rfl, hr⟩ := object_of_sees hsees rfl trivial
  obtain ⟨x, y, hx, hy⟩ := (hsound _ rfl).coordinates r rfl hr
  apply Ends.bind_of_perform (perform_coordinates hx hy)
  apply Ends.argument_bind hargs .int rfl
  intro dx _
  apply Ends.orRaise_bind fun _ ↦ .overflow
  intro x' _
  apply Ends.argument_bind hargs .int rfl
  intro dy _
  apply Ends.orRaise_bind fun _ ↦ .overflow
  intro y' _
  exact Ends.bind_of_perform rfl (Answers.value _)

private theorem safe_distance : Callable.Safe ⟨point, ⟨"Distance", [], .target, distance⟩⟩ := by
  intro target? args h _ hsees hsound
  obtain ⟨r, rfl, hr⟩ := object_of_sees hsees rfl trivial
  obtain ⟨x, y, hx, hy⟩ := (hsound _ rfl).coordinates r rfl hr
  exact Ends.bind_of_perform (perform_coordinates hx hy) (Answers.value _)

private theorem safe_pointType : pointType.Safe :=
  (TypeDefinition.safe_new _).withConstructor safe_newPoint
    |>.withMethod safe_translate
    |>.withMethod safe_distance

/-- All types of the sample unit are safe. -/
theorem safe_definitions : ∀ d ∈ unit.definitions, d.Safe :=
  forall_definitions safe_calculatorType safe_counterType safe_pointType safe_greeterType

end Samples

/-! ### Calls that are made -/

/-- A safe constructor makes a sound object of arguments that fit. -/
theorem Constructor.Safe.construct {c : Constructor} (hc : c.Safe) (hargs : Fits c.parameters args)
    (h : Heap) : ∃ v k, c.construct args h = (.ok v, k) ∧ v.Sound k ∧ ∃ r, v = .object r := by
  have hends := hc (h := h) hargs
  unfold Constructor.construct
  rw [hargs.accepted]
  unfold Ends at hends
  generalize (c.body c.owner args).perform h = p at hends
  obtain ⟨_ | v, k⟩ := p
  · exact hends.elim
  · exact ⟨v, k, rfl, hends⟩

namespace Callable

variable {c : Callable} {f : Fault}

/-- What a method raises on the instance that it sees it raises on the instance of the call. -/
theorem Raises.of_visibleTarget (hf : c.Raises (c.visibleTarget target?) args f) :
    c.Raises target? args f := by
  unfold visibleTarget at hf
  split at hf
  · next hstatic =>
    cases hf with
    | target hr => simp [targetRefusal?, hstatic] at hr
    | overflow => exact .overflow
    | divideByZero howner hname hzero => exact .divideByZero howner hname hzero
    | nullReturn howner hname => exact .nullReturn howner hname
    | argument hf =>
      refine .argument ?_
      cases hf with
      | refused hr => exact .refused hr
      | negative howner hname hstart hcount hlt => exact .negative howner hname hstart hcount hlt
      | outside _ _ htarget => cases htarget
      | emptyName howner hname hempty => exact .emptyName howner hname hempty
  · exact hf

/-- A fault of a call of a safe method is one that the method raises. -/
theorem Safe.invoke (hc : c.Safe) (hargs : ∀ v ∈ args, v.Proper)
    (htarget : ∀ v ∈ target?, v.Sound h)
    (hf : Outcome.ofResult (c.invoke target? args h).1 = .thrown f) : c.Raises target? args f := by
  unfold Callable.invoke at hf
  split at hf
  · next refusal hr =>
    cases hf
    simp only [refusal?, Option.orElse_eq_orElse, Option.orElse_eq_or, Option.or_eq_some_iff] at hr
    rcases hr with hr | ⟨-, hr⟩
    · exact .target hr
    · exact .argument (.refused hr)
  · next hr =>
    obtain ⟨hfits, hsees⟩ := sees_of_refusal? hr
    have hsound : ∀ v ∈ c.visibleTarget target?, v.Sound h := by
      intro v hv
      unfold visibleTarget at hv
      split at hv
      · cases hv
      · exact htarget v hv
    have hends := hc ⟨hfits, hargs⟩ hsees hsound
    unfold Answers Ends at hends
    apply Raises.of_visibleTarget
    generalize (c.method.body (c.visibleTarget target?) args).perform h = p at hends hf
    obtain ⟨_ | _ | v, k⟩ := p
    · cases hf
      exact hends
    · cases hf
      exact hends rfl
    · cases hf

end Callable

/-! ### Kinds of faults -/

/-- Different kinds of faults have different types. -/
theorem Fault.Kind.typeName_injective : Function.Injective typeName := by
  intro k k' h
  cases k <;> cases k' <;> first | rfl | exact absurd h (by decide)

namespace Callable

variable {c : Callable} {f : Fault}

private theorem ArgumentFault.type_eq (hf : c.ArgumentFault target? args f) :
    f.type = Fault.Kind.argument.typeName := by
  cases hf with
  | negative | outside | emptyName => rfl
  | refused hr =>
    unfold argumentRefusal? at hr
    split at hr
    · cases hr
      rfl
    · obtain ⟨_, -, rfl⟩ := Option.map_eq_some_iff.mp hr
      rfl

private theorem type_of_targetRefusal? {refusal : Refusal}
    (hr : c.targetRefusal? target? = some refusal) :
    refusal.fault.type = Fault.Kind.target.typeName := by
  unfold targetRefusal? at hr
  split at hr
  · cases hr
  · cases hr
    rfl
  · split at hr
    · cases hr
    · cases hr
      rfl

/-- What the type of a fault tells about a call of a method of the standard units. -/
structure Tells (c : Callable) (target? : Option Value) (args : List Value) (f : Fault) : Prop where
  kind : ∃ k ∈ [Fault.Kind.argument, .overflow, .divideByZero, .nullReturn, .target],
    f.type = k.typeName
  argument : f.type = Fault.Kind.argument.typeName → c.ArgumentFault target? args f
  divideByZero : f.type = Fault.Kind.divideByZero.typeName →
    c.owner = Samples.calculator ∧ c.method.name = "Divide" ∧ args[1]? = some (.int 0)
  nullReturn : f.type = Fault.Kind.nullReturn.typeName →
    c.owner = Samples.counter ∧ c.method.name = "Reset"
  target : f.type = Fault.Kind.target.typeName →
    ∃ refusal, c.targetRefusal? target? = some refusal ∧ f = refusal.fault

private theorem Tells.of_kind {k : Fault.Kind}
    (hk : k ∈ [Fault.Kind.argument, .overflow, .divideByZero, .nullReturn, .target])
    (htype : f.type = k.typeName) (hargument : k = .argument → c.ArgumentFault target? args f)
    (hzero : k = .divideByZero →
      c.owner = Samples.calculator ∧ c.method.name = "Divide" ∧ args[1]? = some (.int 0))
    (hreturn : k = .nullReturn → c.owner = Samples.counter ∧ c.method.name = "Reset")
    (htarget : k = .target →
      ∃ refusal, c.targetRefusal? target? = some refusal ∧ f = refusal.fault) :
    c.Tells target? args f where
  kind := ⟨k, hk, htype⟩
  argument h := hargument (Fault.Kind.typeName_injective (htype.symm.trans h))
  divideByZero h := hzero (Fault.Kind.typeName_injective (htype.symm.trans h))
  nullReturn h := hreturn (Fault.Kind.typeName_injective (htype.symm.trans h))
  target h := htarget (Fault.Kind.typeName_injective (htype.symm.trans h))

/-- The faults of a method are told apart by their types. -/
theorem Raises.tells (hf : c.Raises target? args f) : c.Tells target? args f := by
  cases hf with
  | argument hf => exact .of_kind (by decide) hf.type_eq (fun _ ↦ hf) nofun nofun nofun
  | target hr =>
    exact .of_kind (by decide) (type_of_targetRefusal? hr) nofun nofun nofun fun _ ↦ ⟨_, hr, rfl⟩
  | overflow => exact .of_kind (k := .overflow) (by decide) rfl nofun nofun nofun nofun
  | divideByZero howner hname hzero =>
    exact .of_kind (k := .divideByZero) (by decide) rfl nofun (fun _ ↦ ⟨howner, hname, hzero⟩)
      nofun nofun
  | nullReturn howner hname =>
    exact .of_kind (k := .nullReturn) (by decide) rfl nofun nofun (fun _ ↦ ⟨howner, hname⟩) nofun

end Callable

/-! ### Checks of native code -/

namespace Fault

/-- The faults of the checks that native code makes of its arguments, of its instance and of the
fields of its instance. -/
inductive OfCheck : Fault → Prop where
  | missing (number : Nat) : OfCheck (.argument ("Missing argument #" ++ toString number))
  | expected (kind : Primitive) (got : String) :
      OfCheck (.argument ("Expected " ++ kind.name ++ ", got " ++ got))
  | noString : OfCheck (.target "Target is not a string")
  | noCount : OfCheck (.argument "Counter has no count")
  | noCounter : OfCheck (.argument "Counter is not an object")
  | noPoint : OfCheck (.argument "Point is not an object")
  | noCoordinate (name : String) : OfCheck (.argument ("Point has no " ++ name))

/-- The first two characters of the message, by which faults of checks differ from others. -/
def initials (f : Fault) : List Char := f.message.toList.take 2

private theorem OfCheck.initials_mem {f : Fault} (hf : f.OfCheck) :
    f.initials ∈ [['M', 'i'], ['E', 'x'], ['T', 'a'], ['C', 'o'], ['P', 'o']] := by
  cases hf <;> simp [initials, argument, Fault.target, new, String.toList_append]

end Fault

private theorem Refusal.initials_mem (refusal : Refusal) :
    refusal.fault.initials ∈ [['N', 'o'], ['O', 'b'], ['P', 'a']] := by
  cases refusal <;> simp [Fault.initials, fault, Native.noTarget, Fault.argument, Fault.target,
    Fault.new, String.toList_append]

/-- No check of native code fails. -/
theorem Callable.Raises.not_ofCheck {c : Callable} {f : Fault} (hf : c.Raises target? args f) :
    ¬ f.OfCheck := by
  have hrefusal : ∀ initials ∈ [['N', 'o'], ['O', 'b'], ['P', 'a']],
      initials ∉ [['M', 'i'], ['E', 'x'], ['T', 'a'], ['C', 'o'], ['P', 'o']] := by decide
  intro hcheck
  have hinitials := hcheck.initials_mem
  cases hf with
  | target => exact hrefusal _ (Refusal.initials_mem _) hinitials
  | overflow | divideByZero | nullReturn => exact absurd hinitials (by decide)
  | argument hf =>
    cases hf with
    | refused => exact hrefusal _ (Refusal.initials_mem _) hinitials
    | negative | outside | emptyName => exact absurd hinitials (by decide)

/-! ### Libraries -/

/-- All types of the loaded units are safe. -/
def Library.Safe (l : Library) : Prop := ∀ u ∈ l.units, ∀ d ∈ u.definitions, d.Safe

namespace Library

variable {l l' : Library} {type : TypeName} {signature : List TypeName}

/-- The library of the core unit is safe. -/
theorem safe_initial : initial.Safe := List.forall_mem_singleton.mpr Core.safe_definitions

/-- A constructor that is found in a safe library is safe. -/
theorem Safe.constructor? (hl : l.Safe) {c : Constructor}
    (hc : l.constructor? type signature = some c) : c.Safe := by
  obtain ⟨u, hu, d, hd, hmem, -⟩ := exists_of_constructor? hc
  exact (hl u hu d hd).constructors c hmem

/-- A method that is found in a safe library is safe. -/
theorem Safe.callable? (hl : l.Safe) {name : String} {c : Callable}
    (hc : l.callable? type name signature = some c) : c.Safe := by
  obtain ⟨u, hu, d, hd, m, hm, rfl⟩ := exists_of_callable? hc
  exact (hl u hu d hd).methods m hm

/-- The standard loader keeps a library safe. -/
theorem Safe.load (hl : l.Safe) {path : String} {u : CodeUnit}
    (h : l.load .standard path = .ok (u, l')) : l'.Safe := by
  refine (loads_of_load h).forall_units hl fun _ _ hunit ↦ ?_
  rw [Loader.eq_of_standard hunit]
  exact Samples.safe_definitions

end Library

end TestDeclaration
