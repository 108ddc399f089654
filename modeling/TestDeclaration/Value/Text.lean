import TestDeclaration.Value

/-!
# Values as text

A scalar is written as itself, a type by its name, and an object by the short name of its type
and its fields in braces.
-/

namespace TestDeclaration.Value

/-- The text of a value with objects inside objects written out `depth` levels deep. -/
def textTo (h : Heap) : (depth : Nat) → Value → String
  | _, .scalar s => String.ofList s.text
  | _, .type t => t.name
  | 0, .object r => r.type.shortName ++ " \x7b .. \x7d"
  | depth + 1, .object r =>
    let fields := (h.fields r).map fun (name, v) ↦ name ++ ": " ++ textTo h depth v
    r.type.shortName ++ " \x7b " ++ ", ".intercalate fields ++ " \x7d"

/-- The text of a value. Objects that do not contain themselves are nested at most as deep as
there are objects. -/
def text (h : Heap) (v : Value) : String := textTo h h.objects.size v

/-- The text of a value behind its type, as reports show it. -/
def typedText (h : Heap) (v : Value) : String :=
  "<" ++ v.typeName.shortName ++ ">(" ++ v.text h ++ ")"

end TestDeclaration.Value
