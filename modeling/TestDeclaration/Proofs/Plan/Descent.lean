import TestDeclaration.Proofs.Plan.Transition

/-!
# Reading by recursive descent

The same reading as `Plan.read`, in another shape. Each part of the grammar has a procedure that
moves a cursor over the tokens: lists are read in loops, and the arguments of a constructor call by
a call of the procedure that reads arguments. Nothing makes the loops and the calls end but the
tokens that they pass, so the procedures are least fixed points in a monad where `none` means that
the descent never ends. On its way a descent keeps a log of the tokens that it passes, of the heads
of its loops and of its calls for arguments.
-/

namespace TestDeclaration

open TestDeclaration.Text

/-- Why a descent ends without a plan. -/
inductive Breakdown where
  | problem (e : PlanError)
  /-- A constructor call names no type, and there is none to be used in its place. -/
  | noType (span : Span)

/-- What a descent does that can be repeated. -/
inductive Mark where
  /-- A token is passed. -/
  | pass
  /-- A loop is entered and comes to its head. -/
  | enter
  /-- A loop comes to its head once more, behind an iteration. -/
  | again
  /-- A list of arguments is called for. -/
  | arguments
  deriving DecidableEq, Repr

/-- Whether a loop is at its head: an iteration begins, or the loop is left. -/
def Mark.isHead : Mark → Bool
  | .enter | .again => true
  | .pass | .arguments => false

/-- What a descent does, and where its cursor is then. -/
structure Event where
  mark : Mark
  cursor : Nat
  deriving DecidableEq, Repr

/-- Where a descent is: at a token or behind the last one, with a draft. -/
structure Walk where
  cursor : Nat
  draft : Draft
  log : List Event

namespace Walk

/-- A descent that begins. -/
def start (d : Draft) : Walk := ⟨0, d, []⟩

/-- The walk with one more event where it is. -/
def note (w : Walk) (mark : Mark) : Walk := { w with log := w.log ++ [⟨mark, w.cursor⟩] }

/-- The walk with the cursor moved by one token. -/
def pass (w : Walk) : Walk := { w.note .pass with cursor := w.cursor + 1 }

end Walk

/-- A part of a descent. It can fail, and it need not end. -/
abbrev Descent (α : Type) := ExceptT Breakdown (StateT Walk Option) α

namespace Descent

/-- Pass the token at the cursor. -/
def advance : Descent Unit := modify Walk.pass

/-- Add an event to the log. -/
def note (mark : Mark) : Descent Unit := modify (Walk.note · mark)

/-- A step of drafting as part of a descent. -/
def draft {α : Type} (x : Drafting α) : Descent α := do
  let w ← get
  set { w with draft := (x.run w.draft).2 }
  MonadExcept.ofExcept ((x.run w.draft).1.mapError .problem)

end Descent

/-- What a descent is about: the tokens, and the loader for the units that they ask for. -/
structure Source where
  loader : Loader
  tokens : List Token

namespace Source

open Descent

variable (s : Source)

/-- The token at the cursor, unless all tokens are passed. -/
def current : Descent (Option Token) := do return s.tokens[(← get).cursor]?

/-- The place of a token, or the one behind the last token. -/
def place (t? : Option Token) : Span :=
  match t? with
  | some t => t.span
  | none => Plan.endSpan s.tokens

/-- Fail at the cursor because something else is wanted there. -/
def fail {α : Type} (wanted : Wanted) : Descent α := do
  throw (.problem ⟨.grammar wanted, s.place (← s.current)⟩)

/-- Whether the token at the cursor is of some kind. -/
def check (kind : TokenKind) : Descent Bool := do
  return (← s.current).any fun t ↦ t.kind == kind

/-- Whether the token at the cursor is an identifier. -/
def checkIdentifier : Descent Bool := do
  match ← s.current with
  | some ⟨.identifier _, _⟩ => return true
  | _ => return false

/-- Pass a symbol. -/
def consumeSymbol (sym : Symbol) (wanted : Wanted) : Descent Unit := do
  if ← s.check (.symbol sym) then advance else s.fail wanted

/-- Pass an identifier. The result is its name and its place. -/
def consumeIdentifier (wanted : Wanted) : Descent (String × Span) := do
  match ← s.current with
  | some ⟨.identifier name, span⟩ =>
    advance
    return (name, span)
  | _ => s.fail wanted

/-- Pass the comma between two elements of a list; stay in front of the end of the list. -/
def listSeparator : Descent Unit := do
  if ← s.check (.symbol .comma) then advance
  else if ← s.check (.symbol .rightParen) then return
  else s.fail .separator

/-- Read the type of a constructor call behind its first word. It is the inferred one if no type is
named. -/
def createdType (inferred? : Option TypeName) : Descent TypeName := do
  match ← s.current, inferred? with
  | some ⟨.identifier name, span⟩, _ =>
    let t ← draft (Drafting.type name span)
    advance
    return t
  | _, some t => return t
  | next?, none => throw (.noType (s.place next?))

mutual

/-- Read a value, which starts at the cursor, and make it at once. -/
def value (s : Source) (inferred? : Option TypeName) : Descent Value := do
  let start? ← s.current
  let e ← s |>.valueExpression inferred?
  draft (Drafting.evaluate e (s.place start?))
partial_fixpoint

/-- Read a value to be made later. -/
def valueExpression (s : Source) (inferred? : Option TypeName) : Descent Expression := do
  match ← s.current with
  | some ⟨.literal scalar, _⟩ =>
    advance
    return .value (.scalar scalar)
  | some ⟨.identifier name, span⟩ =>
    let t ← draft (Drafting.type name span)
    advance
    return .value (.type t)
  | some ⟨.keyword .create, span⟩ =>
    advance
    let type ← s.createdType inferred?
    let args ← s |>.arguments inferred?
    let d := (← get).draft
    let constructor ← draft (Drafting.orFail
      (d.library.constructor? type (args.map Value.typeName)) (.unknownConstructor type) span)
    return .construct constructor args
  | _ => s.fail .value
partial_fixpoint

/-- Read a list of arguments with its parentheses. -/
def arguments (s : Source) (inferred? : Option TypeName) : Descent (List Value) := do
  note .arguments
  s.consumeSymbol .leftParen .openParen
  note .enter
  s |>.argumentLoop inferred? []
partial_fixpoint

/-- Read the arguments behind some others, up to the end of the list. -/
def argumentLoop (s : Source) (inferred? : Option TypeName) (before : List Value) :
    Descent (List Value) := do
  if ← s.check (.symbol .rightParen) then
    advance
    return before
  else
    let v ← s |>.value inferred?
    s.listSeparator
    note .again
    s |>.argumentLoop inferred? (before ++ [v])
partial_fixpoint

end

/-- Read the parameter types behind some others, up to the end of the list. -/
def parameterLoop (s : Source) (before : List TypeName) : Descent (List TypeName) := do
  if ← s.check (.symbol .rightParen) then
    advance
    return before
  else
    let (name, span) ← s.consumeIdentifier .parameter
    let t ← draft (Drafting.type name span)
    s.listSeparator
    note .again
    s |>.parameterLoop (before ++ [t])
partial_fixpoint

/-- Read a list of parameter types with its parentheses. -/
def parameters : Descent (List TypeName) := do
  s.consumeSymbol .leftParen .openParen
  note .enter
  s.parameterLoop []

/-- Read the parameter types of a method, if they are listed. -/
def signature : Descent (Option (List TypeName)) := do
  if ← s.check (.symbol .leftParen) then return some (← s.parameters)
  else return none

/-- How a result is compared with an expected value. A type that is written as a bare name stands
for its values. -/
def criterion (loose named : Bool) (v : Value) : Criterion :=
  match v.asType?, !loose && named with
  | some t, true => .ofType t
  | _, _ => if loose then .equivalentTo v else .exactly v

/-- Read what a case expects behind the word for its channel. -/
def expectation (channel : Channel) (owner : TypeName) : Descent Expectation := do
  let loose ← s.check (.symbol .tilde)
  if loose then advance
  let named ← s.checkIdentifier
  let v ← s.value (some owner)
  return ⟨channel, criterion loose named v⟩

/-- Read how a call is to end. -/
def channel : Descent Channel := do
  if ← s.check (.keyword .expect) then
    advance
    return .returned
  else if ← s.check (.keyword .throws) then
    advance
    return .thrown
  else s.fail .verdict

/-- Read the cases and the activators of a test up to its end. -/
def entryLoop (s : Source) (test : OpenTest) : Descent OpenTest := do
  if ← s.check (.keyword .testCase) then
    advance
    let args ← s.arguments (some test.owner)
    let e ← s.expectation (← s.channel) test.owner
    let test := test.addCase args e
    if ← s.check (.symbol .comma) then
      advance
      note .again
      s |>.entryLoop test
    else if ← s.check (.symbol .semicolon) then
      advance
      return test
    else s.fail .caseEnd
  else if ← s.check (.keyword .onTarget) then
    advance
    let activator ← s.valueExpression (some test.owner)
    s.consumeSymbol .colon .colon
    note .again
    s |>.entryLoop { test with activator? := some activator }
  else s.fail .entry
partial_fixpoint

/-- Read a test behind its first word. -/
def test : Descent Unit := do
  let (typeName, typeSpan) ← s.consumeIdentifier .typeName
  let owner ← draft (Drafting.type typeName typeSpan)
  s.consumeSymbol .arrow .arrow
  let (method, methodSpan) ← s.consumeIdentifier .methodName
  let signature? ← s.signature
  s.consumeSymbol .colon .colon
  note .enter
  let t ← s.entryLoop ⟨owner, method, methodSpan, signature?, none, []⟩
  draft (Drafting.closeTest t)

/-- Read which unit to load or which namespace to search, behind the first word. -/
def directive : Descent Unit := do
  match ← s.current with
  | some ⟨.literal (.string path), span⟩ =>
    draft (Drafting.loadUnit s.loader path span)
    advance
    s.consumeSymbol .semicolon .unitEnd
  | some ⟨.keyword .inNamespace, _⟩ =>
    advance
    let (name, _) ← s.consumeIdentifier .namespaceName
    draft (Drafting.addNamespace name)
    s.consumeSymbol .semicolon .namespaceEnd
  | _ => s.fail .unitPath

/-- Read the start of a group behind its first word. -/
def group : Descent Unit := do
  let (name, span) ← s.consumeIdentifier .groupName
  s.consumeSymbol .semicolon .groupEnd
  draft (Drafting.openGroup name span)

/-- Read an item that starts with some token. -/
def item (t : Token) : Descent Unit := do
  match t.kind with
  | .keyword .use =>
    advance
    s.directive
  | .keyword .testGroup =>
    advance
    s.group
  | .keyword .perform =>
    advance
    s.test
  | _ => s.fail .item

/-- Read items up to the end of the tokens. -/
def itemLoop (s : Source) : Descent Unit := do
  match ← s.current with
  | none => return
  | some t =>
    s.item t
    note .again
    s |>.itemLoop
partial_fixpoint

/-- Read all tokens of a source. -/
def plan : Descent Plan := do
  note .enter
  s.itemLoop
  return (← get).draft.plan

end Source

end TestDeclaration
