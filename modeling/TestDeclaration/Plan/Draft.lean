import TestDeclaration.Plan
import TestDeclaration.Plan.Problem
import TestDeclaration.Token

/-!
# Drafts

While a source is read, a draft holds what its finished part declares: the plan so far, the
loaded units, the namespaces to search and the objects made. The item that is still open is an
`Unfinished`: each constructor says what has been read of the item, and so what can follow.
-/

namespace TestDeclaration

open TestDeclaration.Text

/-- What the finished part of a source declares. -/
structure Draft where
  library : Library
  heap : Heap
  /-- Where declared types are searched, in order. -/
  namespaces : List String
  /-- The groups before the last one. -/
  earlier : List Group
  /-- The group that tests are added to. -/
  current : Group

namespace Draft

/-- The draft of an empty source. -/
def start (library : Library) (heap : Heap) : Draft := ⟨library, heap, [""], [], ⟨"", []⟩⟩

/-- The groups declared so far. -/
def plan (d : Draft) : Plan := d.earlier ++ [d.current]

end Draft

/-- A test whose cases are being read. -/
structure OpenTest where
  owner : TypeName
  method : String
  methodSpan : Span
  /-- The parameter types, if the source lists them. -/
  signature? : Option (List TypeName)
  /-- Makes the instance for the cases that follow. -/
  activator? : Option Expression
  cases : List Case

namespace OpenTest

/-- The parameter types of the method: the listed ones, or the types of the arguments of the
first case. -/
def signature (t : OpenTest) : List TypeName :=
  match t.signature?, t.cases with
  | some signature, _ => signature
  | none, first :: _ => first.arguments.map Value.typeName
  | none, [] => []

end OpenTest

/-- What a value outside all constructor calls is for. -/
inductive Role where
  | activator
  /-- An argument of a case, behind other arguments. -/
  | argument (before : List Value)
  /-- The expected result of a case; a loose one is compared structurally. -/
  | expected (arguments : List Value) (channel : Channel) (loose : Bool)

/-- A constructor call whose arguments are being read. -/
structure OpenCall where
  span : Span
  type : TypeName
  arguments : List Value

/-- Where a value stands: in a test, in a role, inside constructor calls, the innermost first. -/
structure Place where
  test : OpenTest
  role : Role
  within : List OpenCall

/-- What has been read of an item that is not finished. -/
inductive Unfinished where
  /-- Nothing: an item can start here. -/
  | item
  | unitPath
  | unitEnd
  | namespaceName
  | namespaceEnd
  | groupName
  | groupEnd (name : String) (span : Span)
  | testType
  | arrow (owner : TypeName)
  | methodName (owner : TypeName)
  /-- A method name was read; types of parameters can follow. -/
  | signature (test : OpenTest)
  | parameter (test : OpenTest) (before : List TypeName)
  | parameterEnd (test : OpenTest) (before : List TypeName)
  | testColon (test : OpenTest)
  /-- A case or an activator follows. -/
  | entry (test : OpenTest)
  | activatorEnd (test : OpenTest)
  | caseOpen (test : OpenTest)
  /-- A value follows, or the end of the list that it would stand in. -/
  | value (place : Place)
  | valueEnd (place : Place)
  /-- The type of a constructor call follows, or its arguments at once. -/
  | callType (place : Place) (span : Span)
  | callOpen (place : Place) (span : Span) (type : TypeName)
  | verdict (test : OpenTest) (arguments : List Value)
  /-- An expected result follows, perhaps a loose one. -/
  | expectation (test : OpenTest) (arguments : List Value) (channel : Channel)
  | caseEnd (test : OpenTest)

namespace Unfinished

/-- What the grammar asks for next. -/
def wanted : Unfinished → Wanted
  | .item => .item
  | .unitPath => .unitPath
  | .unitEnd => .unitEnd
  | .namespaceName => .namespaceName
  | .namespaceEnd => .namespaceEnd
  | .groupName => .groupName
  | .groupEnd .. => .groupEnd
  | .testType => .typeName
  | .arrow _ => .arrow
  | .methodName _ => .methodName
  | .signature _ | .testColon _ | .activatorEnd _ => .colon
  | .parameter .. => .parameter
  | .parameterEnd .. | .valueEnd _ => .separator
  | .entry _ => .entry
  | .caseOpen _ | .callType .. | .callOpen .. => .openParen
  | .value _ | .expectation .. => .value
  | .verdict .. => .verdict
  | .caseEnd _ => .caseEnd

/-- Whether a source can end here: only between items. -/
def complete : Unfinished → Bool
  | .item => true
  | _ => false

end Unfinished

end TestDeclaration
