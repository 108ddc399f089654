import TestDeclaration.Library
import TestDeclaration.Text.Position

/-!
# What is wrong with a declaration

A declaration can break the grammar, or use a name that means nothing where it stands. Either
way there is one problem, at one token or behind the last one.
-/

namespace TestDeclaration

/-- What the grammar asks for where another token, or none, stands. -/
inductive Wanted where
  | item | unitPath | unitEnd | namespaceName | namespaceEnd | groupName | groupEnd | typeName
  | arrow | methodName | parameter | separator | colon | entry | openParen | value | verdict
  | caseEnd
  deriving DecidableEq, Repr

namespace Wanted

/-- The wording of a break of the grammar. -/
def message : Wanted → String
  | .item => "Unexpected token"
  | .unitPath => "Expected code unit path after using statement"
  | .unitEnd => "Expected semicolon after code unit inclusion"
  | .namespaceName => "Expected namespace name"
  | .namespaceEnd => "Expected semicolon after namespace inclusion"
  | .groupName => "Expected test group name after test_group statement"
  | .groupEnd => "Expected semicolon after test group declaration"
  | .typeName => "Expected Type Name"
  | .arrow => "Expected '->'"
  | .methodName => "Expected Method Name after 'do'"
  | .parameter => "Type expected"
  | .separator => "Expected ) or ,"
  | .colon => "Expected ':'"
  | .entry => "Expected test case"
  | .openParen => "Expected '('"
  | .value => "Argument expected"
  | .verdict => "Expected test result"
  | .caseEnd => "Expected ',' or ';' after test case"

end Wanted

/-- Why a declaration is no plan. -/
inductive PlanProblem where
  | grammar (wanted : Wanted)
  | unit (e : LoadError)
  | groupExists (name : String)
  | unknownType (name : String)
  | unknownMethod (name : String) (owner : TypeName)
  | unknownConstructor (owner : TypeName)
  | constructorFault (f : Fault)
  deriving DecidableEq

namespace PlanProblem

/-- The wording of a load error at the path that asked for the unit. -/
def loadMessage : LoadError → String
  | .emptyPath => "Empty code unit path"
  | .notFound _ => "Code unit does not exist"
  | .failed _ reason => "Code unit was found but could not be loaded: " ++ reason
  | .invalidFormat _ => "Code unit was found but is invalid in this context"
  | .accessDenied _ => "Access to the code unit was denied"
  | .pathTooLong _ => "Code unit path was longer than the system-defined maximum length"

/-- The wording of a problem. -/
def message : PlanProblem → String
  | .grammar wanted => wanted.message
  | .unit e => loadMessage e
  | .groupExists name => "Cannot redefine already existing test group '" ++ name ++ "'"
  | .unknownType name =>
    "Type '" ++ name ++ "' was not found (have you loaded the correct code unit?)"
  | .unknownMethod name owner => "Cannot find method '" ++ name ++ "' on type " ++ owner.name
  | .unknownConstructor owner =>
    "Cannot get constructor on type " ++ owner.name ++ " with given parameters"
  | .constructorFault f => "Constructor raised " ++ f.text

end PlanProblem

/-- A problem and where it is. -/
structure PlanError where
  problem : PlanProblem
  span : Text.Span
  deriving DecidableEq

namespace PlanError

/-- The error with its line and column. -/
def text (e : PlanError) : String :=
  "Parser Error: " ++ e.problem.message ++ " (line " ++ toString e.span.start.line ++
    ", column " ++ toString e.span.start.column ++ ")"

end PlanError

end TestDeclaration
