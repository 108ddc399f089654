import TestDeclaration.CodeUnit.Samples

/-!
# The library of loaded units

A library holds the code units that a program has loaded, in load order; the core unit is the
first. A unit is loaded by its path, through a loader, and only if no unit of its name is loaded
yet. Names are looked up in the units in load order, and the first unit that knows a name settles
it.
-/

namespace TestDeclaration

/-- Why a unit cannot be loaded. -/
inductive LoadError where
  | emptyPath
  | notFound (path : String)
  | failed (path reason : String)
  | invalidFormat (path : String)
  | accessDenied (path : String)
  | pathTooLong (length : Nat)
  deriving DecidableEq, Repr

/-- The number of characters that the path of a unit can have. -/
def maxPathLength : Nat := 260

namespace LoadError

/-- The wording of a load error. -/
def message : LoadError → String
  | .emptyPath => "Code unit path cannot be empty"
  | .notFound path => "Code unit \"" ++ path ++ "\" was not found"
  | .failed path reason => "Code unit \"" ++ path ++ "\" could not be loaded: " ++ reason
  | .invalidFormat path => "Code unit \"" ++ path ++ "\" is not a valid code unit"
  | .accessDenied path => "Access to code unit \"" ++ path ++ "\" was denied"
  | .pathTooLong length =>
    "Code unit path is " ++ toString length ++ " characters long, the limit is " ++
      toString maxPathLength

end LoadError

/-- Where units come from: the unit at a path, or why there is none. -/
abbrev Loader := String → Except LoadError CodeUnit

namespace Loader

/-- A loader for a fixed list of paths. -/
def ofTable (table : List (String × CodeUnit)) : Loader := fun path ↦
  match table.lookup path with
  | some unit => .ok unit
  | none => .error (.notFound path)

/-- The loader of the units that come with the interpreter. -/
def standard : Loader := ofTable [(Samples.path, Samples.unit)]

end Loader

/-- The loaded units in load order. -/
structure Library where
  units : List CodeUnit

namespace Library

/-- The library that has loaded the core unit only. -/
def initial : Library := ⟨[Core.unit]⟩

/-- Load the unit at a path. The result is the loaded unit of its name. -/
def load (l : Library) (loader : Loader) (path : String) :
    Except LoadError (CodeUnit × Library) :=
  if path.isEmpty then .error .emptyPath
  else if maxPathLength < path.length then .error (.pathTooLong path.length)
  else match loader path with
    | .error e => .error e
    | .ok unit =>
      match l.units.find? fun loaded ↦ loaded.name == unit.name with
      | some loaded => .ok (loaded, l)
      | none => .ok (unit, ⟨l.units ++ [unit]⟩)

/-- A name behind a namespace; the empty namespace adds nothing. -/
def qualify (space name : String) : String :=
  if space.isEmpty then name else space ++ "." ++ name

/-- The type that a name means: a primitive, or the first declared type that some unit knows
under one of the namespaces. All namespaces are tried in one unit before the next unit. -/
def type? (l : Library) (namespaces : List String) (name : String) : Option TypeName :=
  match Primitive.ofName? name with
  | some p => some (.primitive p)
  | none => l.units.findSome? fun unit ↦
      ((namespaces.map (qualify · name)).find? unit.declares).map TypeName.declared

/-- The definition of a type in the first unit that has one. -/
def definition? (l : Library) (type : TypeName) : Option TypeDefinition :=
  l.units.findSome? fun unit ↦ unit.definition? type

/-- The method of a type with some name and exactly these parameters. -/
def callable? (l : Library) (type : TypeName) (name : String) (signature : List TypeName) :
    Option Callable :=
  ((l.definition? type).bind fun d ↦ d.method? name signature).map fun m ↦ ⟨type, m⟩

/-- The constructor of a type with exactly these parameters. -/
def constructor? (l : Library) (type : TypeName) (signature : List TypeName) :
    Option Constructor :=
  (l.definition? type).bind fun d ↦ d.constructor? signature

end Library

end TestDeclaration
