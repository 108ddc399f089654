/-!
# Types

A type is known by its name alone: a primitive, or a declared type with its full name. A
declared type is never a primitive, even if the two names agree.
-/

namespace TestDeclaration

/-- The types that need no declaration. -/
inductive Primitive where
  | bool | byte | char | short | int | uint | long | float | double | string | object
  /-- The type of a type. -/
  | type
  deriving DecidableEq, Repr

namespace Primitive

/-- The name of a primitive. -/
def name : Primitive → String
  | .bool => "bool"
  | .byte => "byte"
  | .char => "char"
  | .short => "short"
  | .int => "int"
  | .uint => "uint"
  | .long => "long"
  | .float => "float"
  | .double => "double"
  | .string => "string"
  | .object => "object"
  | .type => "type"

/-- The primitives that a source can name: all but the type of types. -/
def nameable : List Primitive :=
  [.bool, .byte, .char, .short, .int, .uint, .long, .float, .double, .string, .object]

/-- The primitive that a word names. -/
def ofName? (word : String) : Option Primitive := nameable.find? fun p ↦ p.name == word

/-- Every nameable primitive is named by its own name. -/
theorem ofName?_name {p : Primitive} (h : p ≠ .type) : ofName? p.name = some p := by
  cases p <;> first | rfl | exact absurd rfl h

/-- A word names at most the primitive whose name it is. -/
theorem name_of_ofName? {word : String} {p : Primitive} (h : ofName? word = some p) :
    p.name = word := by
  simpa using List.find?_some h

end Primitive

/-- The identity of a type. -/
inductive TypeName where
  | primitive (p : Primitive)
  | declared (fullName : String)
  deriving DecidableEq, Repr

namespace TypeName

/-- The full name of a type. -/
def name : TypeName → String
  | .primitive p => p.name
  | .declared fullName => fullName

/-- The text behind the last point of a name, or the whole name. -/
def lastPart (name : List Char) : List Char :=
  (name.reverse.takeWhile (· ≠ '.')).reverse

/-- The name of a type without its namespace. -/
def shortName (t : TypeName) : String := String.ofList (lastPart t.name.toList)

end TypeName

end TestDeclaration
