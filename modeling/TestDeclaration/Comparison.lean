import TestDeclaration.Value

/-!
# Comparing values

Two comparisons decide whether an outcome is the expected one. Exact equality wants the same
kinds and values, and of objects the same type and the same fields in the same order. Structural
equivalence compares numbers by value whatever their kind, ignores the types of objects, and lets
the actual object have more fields. An object always matches itself. Both follow objects to a
limited depth; what they decide within it, they decide without looking further.
-/

namespace TestDeclaration.Comparison

/-- The depth to which objects inside objects are followed. -/
def maxDepth : Nat := 32

/-- A comparison that would have to go deeper. -/
inductive Failure where
  | tooDeep
  deriving DecidableEq, Repr

/-- The wording of a failure. -/
def Failure.message : Failure → String
  | .tooDeep => "Comparison exceeded the maximum depth of " ++ toString maxDepth

/-- Whether a comparison holds, or why it could not be decided. -/
abbrev Answer := Except Failure Bool

/-- Compare fields position by position, up to the first difference. -/
def pairwise (same : Value → Value → Answer) : Fields → Fields → Answer
  | (name, v) :: rest, (name', w) :: rest' =>
    if name ≠ name' then .ok false
    else match same v w with
      | .ok true => pairwise same rest rest'
      | answer => answer
  | _, _ => .ok true

/-- Exact equality with objects followed through `steps` values, this one included. -/
def exactWithin (h : Heap) : (steps : Nat) → Value → Value → Answer
  | 0, _, _ => .error .tooDeep
  | _ + 1, .scalar a, .scalar b => .ok (a.same b)
  | _ + 1, .type a, .type b => .ok (a == b)
  | steps + 1, .object a, .object b =>
    if a = b then .ok true
    else if a.type ≠ b.type then .ok false
    else if (h.fields a).length ≠ (h.fields b).length then .ok false
    else pairwise (exactWithin h steps) (h.fields a) (h.fields b)
  | _ + 1, _, _ => .ok false

/-- Exact equality of an expected and an actual value. -/
def exactlyEqual (h : Heap) (expected actual : Value) : Answer :=
  exactWithin h (maxDepth + 1) expected actual

/-- Compare each field of one object with the field of that name of another, up to the first
difference. -/
def byName (same : Value → Value → Answer) (actual : Fields) : Fields → Answer
  | [] => .ok true
  | (name, v) :: rest =>
    match actual.get? name with
    | none => .ok false
    | some w =>
      match same v w with
      | .ok true => byName same actual rest
      | answer => answer

/-- Structural equivalence with objects followed through `steps` values, this one included. -/
def equivalentWithin (h : Heap) : (steps : Nat) → Value → Value → Answer
  | 0, _, _ => .error .tooDeep
  | steps + 1, expected, actual =>
    match expected.operand?, actual.operand? with
    | some a, some b => .ok (a.same b)
    | _, _ =>
      match expected, actual with
      | .scalar a, .scalar b => .ok (a.same b)
      | .type a, .type b => .ok (a == b)
      | .object a, .object b =>
        if a = b then .ok true
        else byName (equivalentWithin h steps) (h.fields b) (h.fields a)
      | _, _ => .ok false

/-- Structural equivalence of an expected and an actual value. -/
def equivalent (h : Heap) (expected actual : Value) : Answer :=
  equivalentWithin h (maxDepth + 1) expected actual

end TestDeclaration.Comparison
