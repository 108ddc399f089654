import TestDeclaration.Plan.Draft
import TestDeclaration.Proofs.Plan.Grammar

/-!
# What a declaration means

The rules by which the trees of the grammar declare groups, tests and cases. Each rule has the
conditions under which its tree means something as premises, in the state that the text before it
leaves. A tree without a derivation means nothing, however well formed its tokens are.
-/

namespace TestDeclaration.Grammar

/-- Where the names in a test are looked up, and the type that the test is about. -/
structure Scope where
  library : Library
  namespaces : List String
  owner : TypeName

namespace Scope

/-- The type that a name means. -/
def type? (s : Scope) (name : String) : Option TypeName := s.library.type? s.namespaces name

/-- The type that a constructor call makes: the named one, or the one under test. -/
def created? (s : Scope) (type? : Option String) : Option TypeName :=
  match type? with
  | none => some s.owner
  | some name => s.type? name

end Scope

variable (s : Scope)

mutual

/-- In some heap a value stands for an expression, once its arguments are made. -/
inductive Denotes : Term → Heap → Expression → Heap → Prop where
  | literal {value : Scalar} {h : Heap} : Denotes (.literal value) h (.value (.scalar value)) h
  | typeName {name : String} {t : TypeName} {h : Heap} : s.type? name = some t →
      Denotes (.typeName name) h (.value (.type t)) h
  | create {type? : Option String} {arguments : List Term} {trailing : Bool} {t : TypeName}
      {c : Constructor} {vs : List Value} {h h' : Heap} :
      s.created? type? = some t → MakesAll arguments h vs h' →
      s.library.constructor? t (vs.map Value.typeName) = some c →
      Denotes (.create type? arguments trailing) h (.construct c vs) h'

/-- Some values are made one after the other. -/
inductive MakesAll : List Term → Heap → List Value → Heap → Prop where
  | nil {h : Heap} : MakesAll [] h [] h
  | cons {t : Term} {rest : List Term} {e : Expression} {v : Value} {vs : List Value}
      {h h₁ h₂ h' : Heap} :
      Denotes t h e h₁ → e.evaluate h₁ = (.ok v, h₂) → MakesAll rest h₂ vs h' →
      MakesAll (t :: rest) h (v :: vs) h'

end

/-- Activators take the place of the one in force. None of them is made yet, but their arguments
are. -/
inductive Activates : Option Expression → Heap → List Term → Option Expression → Heap → Prop where
  | nil {a? : Option Expression} {h : Heap} : Activates a? h [] a? h
  | cons {a? b? : Option Expression} {t : Term} {rest : List Term} {e : Expression}
      {h h₁ h' : Heap} :
      Denotes s t h e h₁ → Activates (some e) h₁ rest b? h' → Activates a? h (t :: rest) b? h'

/-- What an expected value asks for. A bare type name asks for any value of that type, unless
the comparison is loose; then the type itself is the value. -/
inductive Demands : (loose : Bool) → Term → Heap → Criterion → Heap → Prop where
  | ofType {name : String} {t : TypeName} {h : Heap} : s.type? name = some t →
      Demands false (.typeName name) h (.ofType t) h
  | exactly {t : Term} {e : Expression} {v : Value} {h h₁ h' : Heap} :
      (∀ name, t ≠ .typeName name) → Denotes s t h e h₁ → e.evaluate h₁ = (.ok v, h') →
      Demands false t h (.exactly v) h'
  | equivalentTo {t : Term} {e : Expression} {v : Value} {h h₁ h' : Heap} :
      Denotes s t h e h₁ → e.evaluate h₁ = (.ok v, h') → Demands true t h (.equivalentTo v) h'

/-- An entry declares a case with the last activator in front of it, which can be that of the
case before. -/
inductive DeclaresCase : Option Expression → Heap → Entry → Case → Heap → Prop where
  | intro {a? b? : Option Expression} {e : Entry} {args : List Value} {c : Criterion}
      {h h₁ h₂ h' : Heap} :
      Activates s a? h e.activators b? h₁ → MakesAll s e.arguments h₁ args h₂ →
      Demands s e.loose e.expected h₂ c h' →
      DeclaresCase a? h e ⟨b?, args, ⟨e.channel, c⟩⟩ h'

/-- Entries declare cases one after the other. -/
inductive DeclaresCases : Option Expression → Heap → List Entry → List Case → Heap → Prop where
  | nil {a? : Option Expression} {h : Heap} : DeclaresCases a? h [] [] h
  | cons {a? : Option Expression} {e : Entry} {rest : List Entry} {c : Case} {cases : List Case}
      {h h₁ h' : Heap} :
      DeclaresCase s a? h e c h₁ → DeclaresCases c.activator? h₁ rest cases h' →
      DeclaresCases a? h (e :: rest) (c :: cases) h'

/-- Names of parameter types stand for types, if there are any names. -/
inductive DeclaresTypes : Option (List String × Bool) → Option (List TypeName) → Prop where
  | none : DeclaresTypes none none
  | some {names : List String} {trailing : Bool} {types : List TypeName} :
      names.map s.type? = types.map Option.some →
      DeclaresTypes (some (names, trailing)) (some types)

/-- A test declares a method with cases. The parameters are the listed types, or else the types
of the arguments of the first case, and the method has exactly these. -/
inductive DeclaresTest : TestText → Heap → Test → Heap → Prop where
  | intro {t : TestText} {listed? : Option (List TypeName)} {first : Case} {others : List Case}
      {target : Callable} {h h' : Heap} :
      DeclaresTypes s t.parameters? listed? →
      DeclaresCases s none h (t.first :: t.others) (first :: others) h' →
      s.library.callable? s.owner t.method
        (listed?.getD (first.arguments.map Value.typeName)) = some target →
      DeclaresTest t h ⟨target, first :: others⟩ h'

variable (loader : Loader)

/-- An item adds to what the items before it declare. -/
inductive DeclaresItem : Item → Draft → Draft → Prop where
  | unit {path : String} {u : CodeUnit} {library : Library} {d : Draft} :
      d.library.load loader path = .ok (u, library) →
      DeclaresItem (.unit path) d { d with library }
  | inNamespace {name : String} {d : Draft} :
      DeclaresItem (.inNamespace name) d { d with namespaces := d.namespaces ++ [name] }
  | group {name : String} {d : Draft} : name ∉ d.plan.map Group.name →
      DeclaresItem (.group name) d { d with earlier := d.plan, current := ⟨name, []⟩ }
  | test {t : TestText} {owner : TypeName} {test : Test} {heap : Heap} {d : Draft} :
      d.library.type? d.namespaces t.owner = some owner →
      DeclaresTest ⟨d.library, d.namespaces, owner⟩ t d.heap test heap →
      DeclaresItem (.test t) d
        { d with heap, current := { d.current with tests := d.current.tests ++ [test] } }

/-- The items of a program declare one after the other. -/
inductive Declares : Program → Draft → Draft → Prop where
  | nil {d : Draft} : Declares [] d d
  | cons {i : Item} {rest : Program} {d d₁ d' : Draft} :
      DeclaresItem loader i d d₁ → Declares rest d₁ d' → Declares (i :: rest) d d'

end TestDeclaration.Grammar
