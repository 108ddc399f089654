import TestDeclaration.Native

/-!
# Code units

A code unit is a named collection of type definitions, each with constructors and methods in
native code. Constructors and methods are chosen by the exact list of parameter types. A call
checks the instance and the arguments first and reaches the native code only if both fit.
-/

namespace TestDeclaration

/-- Why a call is refused before it reaches native code. -/
inductive Refusal where
  | noTarget
  | wrongTarget (actual owner : TypeName)
  | wrongCount (expected actual : Nat)
  | wrongType (actual parameter : TypeName)
  deriving DecidableEq, Repr

namespace Refusal

/-- The fault of a refused call. -/
def fault : Refusal → Fault
  | .noTarget => Native.noTarget
  | .wrongTarget actual owner =>
    .target ("Object of type " ++ actual.name ++ " does not match target type " ++ owner.name)
  | .wrongCount expected actual =>
    .argument ("Parameter count mismatch, expected " ++ toString expected ++ " but got " ++
      toString actual)
  | .wrongType actual parameter =>
    .argument ("Object of type " ++ actual.name ++ " cannot be converted to type " ++
      parameter.name)

end Refusal

/-- Whether a parameter takes a value: `object` takes all, another type its own. -/
def accepts (parameter : TypeName) (v : Value) : Bool :=
  parameter == .primitive .object || v.typeName == parameter

/-- Why a list of arguments does not fit a list of parameters. -/
def argumentRefusal? (parameters : List TypeName) (args : List Value) : Option Refusal :=
  if parameters.length ≠ args.length then some (.wrongCount parameters.length args.length)
  else ((parameters.zip args).find? fun (p, v) ↦ !accepts p v).map fun (p, v) ↦
    .wrongType v.typeName p

/-- The short names of parameters, as signatures show them. -/
def parameterText (parameters : List TypeName) : String :=
  ", ".intercalate (parameters.map TypeName.shortName)

/-- Whether a method is called on an instance. -/
inductive Receiver where
  | static
  | target
  deriving DecidableEq, Repr

/-- A method of a type. A body may return without a value. -/
structure Method where
  name : String
  parameters : List TypeName
  receiver : Receiver
  body : Option Value → List Value → Native (Option Value)

/-- A constructor of a type. The body is given the type to construct. -/
structure Constructor where
  owner : TypeName
  parameters : List TypeName
  body : TypeName → List Value → Native Value

namespace Constructor

/-- The signature of a constructor. -/
def text (c : Constructor) : String :=
  "new " ++ c.owner.shortName ++ "(" ++ parameterText c.parameters ++ ")"

/-- Call a constructor. -/
def construct (c : Constructor) (args : List Value) (h : Heap) : Except Fault Value × Heap :=
  match argumentRefusal? c.parameters args with
  | some refusal => (.error refusal.fault, h)
  | none => (c.body c.owner args).perform h

end Constructor

/-- A method together with the type that it is called on. -/
structure Callable where
  owner : TypeName
  method : Method

namespace Callable

/-- The signature of a method. -/
def text (c : Callable) : String :=
  c.owner.shortName ++ "->" ++ c.method.name ++ "(" ++ parameterText c.method.parameters ++ ")"

/-- Why the instance of a call does not fit. -/
def targetRefusal? (c : Callable) (target? : Option Value) : Option Refusal :=
  match c.method.receiver, target? with
  | .static, _ => none
  | .target, none => some .noTarget
  | .target, some v =>
    if v.typeName = c.owner then none else some (.wrongTarget v.typeName c.owner)

/-- Why a call is refused; the instance is checked before the arguments. -/
def refusal? (c : Callable) (target? : Option Value) (args : List Value) : Option Refusal :=
  c.targetRefusal? target? <|> argumentRefusal? c.method.parameters args

/-- The instance that the body of a method sees; a static method sees none. -/
def visibleTarget (c : Callable) (target? : Option Value) : Option Value :=
  match c.method.receiver with
  | .static => none
  | .target => target?

/-- Call a method. -/
def invoke (c : Callable) (target? : Option Value) (args : List Value) (h : Heap) :
    Except Fault (Option Value) × Heap :=
  match c.refusal? target? args with
  | some refusal => (.error refusal.fault, h)
  | none => (c.method.body (c.visibleTarget target?) args).perform h

end Callable

/-- The definition of a type. -/
structure TypeDefinition where
  type : TypeName
  constructors : List Constructor
  methods : List Method

namespace TypeDefinition

/-- A type without constructors and methods. -/
def new (type : TypeName) : TypeDefinition := ⟨type, [], []⟩

/-- Add a constructor. -/
def withConstructor (d : TypeDefinition) (parameters : List TypeName)
    (body : TypeName → List Value → Native Value) : TypeDefinition :=
  { d with constructors := d.constructors ++ [⟨d.type, parameters, body⟩] }

/-- Add a method. -/
def withMethod (d : TypeDefinition) (receiver : Receiver) (name : String)
    (parameters : List TypeName) (body : Option Value → List Value → Native (Option Value)) :
    TypeDefinition :=
  { d with methods := d.methods ++ [⟨name, parameters, receiver, body⟩] }

/-- The first method with some name and exactly these parameters. -/
def method? (d : TypeDefinition) (name : String) (signature : List TypeName) : Option Method :=
  d.methods.find? fun m ↦ m.name == name && m.parameters == signature

/-- The first constructor with exactly these parameters. -/
def constructor? (d : TypeDefinition) (signature : List TypeName) : Option Constructor :=
  d.constructors.find? fun c ↦ c.parameters == signature

end TypeDefinition

/-- A named collection of types. A type defined twice has its later definition, which stands
in front of the earlier one. -/
structure CodeUnit where
  name : String
  definitions : List TypeDefinition

namespace CodeUnit

/-- A unit without types. -/
def new (name : String) : CodeUnit := ⟨name, []⟩

/-- Define a type, in place of any earlier definition. -/
def withType (u : CodeUnit) (d : TypeDefinition) : CodeUnit :=
  { u with definitions := d :: u.definitions }

/-- The definition of a type. -/
def definition? (u : CodeUnit) (type : TypeName) : Option TypeDefinition :=
  u.definitions.find? fun d ↦ d.type == type

/-- Whether a unit defines the declared type of some full name. -/
def declares (u : CodeUnit) (fullName : String) : Bool :=
  (u.definition? (.declared fullName)).isSome

end CodeUnit

end TestDeclaration
