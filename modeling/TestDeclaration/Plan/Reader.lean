import TestDeclaration.Plan.Draft

/-!
# From tokens to a plan

`Plan.read` takes the tokens of a source one by one. Each token either continues the unfinished
item, perhaps after looking up a name, loading a unit or making an object, or it is the place of
the one error that is reported. So what a source means up to some token does not depend on what
follows it.
-/

namespace TestDeclaration

open TestDeclaration.Text

/-- A step that can change the draft and can fail. -/
abbrev Drafting (α : Type) := ExceptT PlanError (StateM Draft) α

namespace Drafting

/-- Fail with a problem at some place. -/
def fail {α : Type} (problem : PlanProblem) (span : Span) : Drafting α :=
  throw ⟨problem, span⟩

/-- The result of an optional value, or a problem without one. -/
def orFail {α : Type} (a? : Option α) (problem : PlanProblem) (span : Span) : Drafting α :=
  match a? with
  | some a => pure a
  | none => fail problem span

/-- The type that a name means here. -/
def type (name : String) (span : Span) : Drafting TypeName := do
  let d ← get
  orFail (d.library.type? d.namespaces name) (.unknownType name) span

/-- Make a value that starts at some place. -/
def evaluate (e : Expression) (span : Span) : Drafting Value := do
  let d ← get
  let (result, heap) := e.evaluate d.heap
  set { d with heap }
  match result with
  | .ok v => pure v
  | .error f => fail (.constructorFault f) span

/-- Load the unit at a path. -/
def loadUnit (loader : Loader) (path : String) (span : Span) : Drafting Unit := do
  let d ← get
  match d.library.load loader path with
  | .ok (_, library) => set { d with library }
  | .error e => fail (.unit e) span

/-- Search one more namespace. -/
def addNamespace (name : String) : Drafting Unit :=
  modify fun d ↦ { d with namespaces := d.namespaces ++ [name] }

/-- Start a group, which has to be new. -/
def openGroup (name : String) (span : Span) : Drafting Unit := do
  let d ← get
  if d.plan.any fun g ↦ g.name == name then fail (.groupExists name) span
  set { d with earlier := d.plan, current := ⟨name, []⟩ }

/-- Add a test, whose method has to exist. -/
def closeTest (t : OpenTest) : Drafting Unit := do
  let d ← get
  let target ← orFail (d.library.callable? t.owner t.method t.signature)
    (.unknownMethod t.method t.owner) t.methodSpan
  let test : Test := ⟨target, t.cases⟩
  set { d with current := { d.current with tests := d.current.tests ++ [test] } }

end Drafting

namespace OpenTest

/-- Add a case with the activator that is in force. -/
def addCase (t : OpenTest) (arguments : List Value) (expectation : Expectation) : OpenTest :=
  { t with cases := t.cases ++ [⟨t.activator?, arguments, expectation⟩] }

end OpenTest

namespace Place

open Drafting

/-- Put a value, which starts at some place, where it belongs. Every value is made at once,
except an activator. -/
def fill (p : Place) (span : Span) (e : Expression) : Drafting Unfinished :=
  match p.within, p.role with
  | call :: outer, _ => do
    let v ← evaluate e span
    let call := { call with arguments := call.arguments ++ [v] }
    return .valueEnd { p with within := call :: outer }
  | [], .activator => return .activatorEnd { p.test with activator? := some e }
  | [], .argument before => do
    let v ← evaluate e span
    return .valueEnd { p with role := .argument (before ++ [v]) }
  | [], .expected arguments channel loose => do
    let v ← evaluate e span
    let criterion := if loose then .equivalentTo v else .exactly v
    return .caseEnd (p.test.addCase arguments ⟨channel, criterion⟩)

/-- Put a type where it belongs. As an exactly expected result it stands for all its values. -/
def fillType (p : Place) (span : Span) (type : TypeName) : Drafting Unfinished :=
  match p.within, p.role with
  | [], .expected arguments channel false =>
    return .caseEnd (p.test.addCase arguments ⟨channel, .ofType type⟩)
  | _, _ => p.fill span (.value (.type type))

/-- End the list of arguments around a place, if there is one, at the parenthesis given. -/
def close (p : Place) (span : Span) (wanted : Wanted) : Drafting Unfinished :=
  match p.within, p.role with
  | call :: outer, _ => do
    let d ← get
    let constructor ← orFail
      (d.library.constructor? call.type (call.arguments.map Value.typeName))
      (.unknownConstructor call.type) call.span
    fill { p with within := outer } call.span (.construct constructor call.arguments)
  | [], .argument arguments => return .verdict p.test arguments
  | [], .activator | [], .expected .. => fail (.grammar wanted) span

/-- Read the first token of a value, or the end of the list around it. -/
def begin (p : Place) (t : Token) : Drafting Unfinished :=
  match t.kind with
  | .literal s => p.fill t.span (.value (.scalar s))
  | .identifier name => do p.fillType t.span (← type name t.span)
  | .keyword .create => return .callType p t.span
  | .symbol .rightParen => p.close t.span .value
  | _ => fail (.grammar .value) t.span

/-- The place of the first argument of a constructor call. -/
def inCall (p : Place) (span : Span) (type : TypeName) : Place :=
  { p with within := ⟨span, type, []⟩ :: p.within }

end Place

namespace Unfinished

open Drafting

/-- Read one more token. -/
def step (loader : Loader) (q : Unfinished) (t : Token) : Drafting Unfinished :=
  match q, t.kind with
  | .item, .keyword .use => return .unitPath
  | .item, .keyword .testGroup => return .groupName
  | .item, .keyword .perform => return .testType
  | .unitPath, .literal (.string path) => do loadUnit loader path t.span; return .unitEnd
  | .unitPath, .keyword .inNamespace => return .namespaceName
  | .unitEnd, .symbol .semicolon => return .item
  | .namespaceName, .identifier name => do addNamespace name; return .namespaceEnd
  | .namespaceEnd, .symbol .semicolon => return .item
  | .groupName, .identifier name => return .groupEnd name t.span
  | .groupEnd name span, .symbol .semicolon => do openGroup name span; return .item
  | .testType, .identifier name => return .arrow (← type name t.span)
  | .arrow owner, .symbol .arrow => return .methodName owner
  | .methodName owner, .identifier name =>
    return .signature ⟨owner, name, t.span, none, none, []⟩
  | .signature test, .symbol .leftParen => return .parameter test []
  | .signature test, .symbol .colon => return .entry test
  | .parameter test before, .symbol .rightParen =>
    return .testColon { test with signature? := some before }
  | .parameter test before, .identifier name =>
    return .parameterEnd test (before ++ [← type name t.span])
  | .parameterEnd test before, .symbol .comma => return .parameter test before
  | .parameterEnd test before, .symbol .rightParen =>
    return .testColon { test with signature? := some before }
  | .testColon test, .symbol .colon => return .entry test
  | .entry test, .keyword .testCase => return .caseOpen test
  | .entry test, .keyword .onTarget => return .value ⟨test, .activator, []⟩
  | .activatorEnd test, .symbol .colon => return .entry test
  | .caseOpen test, .symbol .leftParen => return .value ⟨test, .argument [], []⟩
  | .value place, _ => place.begin t
  | .valueEnd place, .symbol .comma => return .value place
  | .valueEnd place, .symbol .rightParen => place.close t.span .separator
  | .callType place span, .identifier name =>
    return .callOpen place span (← type name t.span)
  | .callType place span, .symbol .leftParen =>
    return .value (place.inCall span place.test.owner)
  | .callOpen place span type, .symbol .leftParen => return .value (place.inCall span type)
  | .verdict test arguments, .keyword .expect => return .expectation test arguments .returned
  | .verdict test arguments, .keyword .throws => return .expectation test arguments .thrown
  | .expectation test arguments channel, .symbol .tilde =>
    return .value ⟨test, .expected arguments channel true, []⟩
  | .expectation test arguments channel, _ =>
    Place.begin ⟨test, .expected arguments channel false, []⟩ t
  | .caseEnd test, .symbol .comma => return .entry test
  | .caseEnd test, .symbol .semicolon => do closeTest test; return .item
  | q, _ => fail (.grammar q.wanted) t.span

end Unfinished

namespace Plan

/-- The place just behind the last token. -/
def endSpan (tokens : List Token) : Span :=
  match tokens.getLast? with
  | some t => t.span.behind
  | none => .atStart

/-- Read all tokens of a source. -/
def drafting (loader : Loader) (tokens : List Token) : Drafting Plan := do
  let q ← tokens.foldlM (Unfinished.step loader) .item
  if q.complete then return (← get).plan
  else Drafting.fail (.grammar q.wanted) (endSpan tokens)

/-- The plan that the tokens of a source declare, or the first error, and the draft that
reading leaves. -/
def read (loader : Loader) (tokens : List Token) (d : Draft) : Except PlanError Plan × Draft :=
  (drafting loader tokens).run d

end Plan

end TestDeclaration
