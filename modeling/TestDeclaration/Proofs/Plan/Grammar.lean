import TestDeclaration.Plan
import TestDeclaration.Token

/-!
# The grammar of declarations

A source is a sequence of items. The types below are its derivation trees, one for each
nonterminal of the grammar, and the `kinds` of a tree are the tokens that it derives. Nothing is
looked up here: a name is a word, and a value is what is written for it.
-/

namespace TestDeclaration.Grammar

/-- Parts in parentheses: `(` [part (`,` part)* [`,`]] `)`. Only behind a part can a comma be
trailing. -/
def enclosed (parts : List (List TokenKind)) (trailing : Bool) : List TokenKind :=
  .symbol .leftParen :: [.symbol .comma].intercalate parts ++
    (if trailing ∧ parts ≠ [] then [.symbol .comma] else []) ++ [.symbol .rightParen]

/-- A written value: a literal, an identifier, or `new` with an optional identifier and
arguments. -/
inductive Term where
  | literal (value : Scalar)
  | typeName (name : String)
  | create (type? : Option String) (arguments : List Term) (trailing : Bool)

namespace Term

mutual

/-- The tokens of a value. -/
def kinds : Term → List TokenKind
  | .literal value => [.literal value]
  | .typeName name => [.identifier name]
  | .create type? arguments trailing =>
    .keyword .create :: (type?.map TokenKind.identifier).toList ++
      enclosed (kindsOfAll arguments) trailing

/-- The tokens of each of some values. -/
def kindsOfAll : List Term → List (List TokenKind)
  | [] => []
  | t :: rest => kinds t :: kindsOfAll rest

end

/-- The tokens of several values are those of each of them. -/
theorem kindsOfAll_eq_map (ts : List Term) : kindsOfAll ts = ts.map kinds := by
  induction ts with
  | nil => rw [kindsOfAll, List.map_nil]
  | cons t rest ih => rw [kindsOfAll, ih, List.map_cons]

/-- A fact about all values holds if it holds of a call whenever it holds of its arguments. -/
@[elab_as_elim]
theorem induction {motive : Term → Prop} (literal : ∀ value, motive (.literal value))
    (typeName : ∀ name, motive (.typeName name))
    (create : ∀ type? arguments trailing, (∀ t ∈ arguments, motive t) →
      motive (.create type? arguments trailing)) (t : Term) : motive t := by
  refine Term.rec (motive_1 := motive) (motive_2 := fun ts ↦ ∀ t ∈ ts, motive t)
    literal typeName create ?_ ?_ t
  · intro t ht
    cases ht
  · intro t rest ht hrest u hu
    rcases List.mem_cons.mp hu with rfl | hu
    · exact ht
    · exact hrest u hu

end Term

/-- The keyword in front of an expected result. -/
def channelWord : Channel → TokenKind
  | .returned => .keyword .expect
  | .thrown => .keyword .throws

/-- A case with the activators in front of it: (`on` value `:`)* `case` arguments, the keyword of
its channel, an optional `~` and the expected value. -/
structure Entry where
  activators : List Term
  arguments : List Term
  trailing : Bool
  channel : Channel
  loose : Bool
  expected : Term

/-- The tokens of activators. -/
def activation (activators : List Term) : List TokenKind :=
  activators.flatMap fun t ↦ .keyword .onTarget :: t.kinds ++ [.symbol .colon]

/-- The tokens of an expected result. -/
def demand (loose : Bool) (expected : Term) : List TokenKind :=
  if loose then .symbol .tilde :: expected.kinds else expected.kinds

/-- The tokens of an entry. -/
def Entry.kinds (e : Entry) : List TokenKind :=
  activation e.activators ++ .keyword .testCase ::
    enclosed (e.arguments.map Term.kinds) e.trailing ++ channelWord e.channel ::
      demand e.loose e.expected

/-- The tokens of entries: commas between them, a semicolon behind the last. -/
def block : Entry → List Entry → List TokenKind
  | e, [] => e.kinds ++ [.symbol .semicolon]
  | e, next :: rest => e.kinds ++ .symbol .comma :: block next rest

/-- A written test: `do` type `->` method, optional parameter types, `:` and its entries. -/
structure TestText where
  owner : String
  method : String
  /-- The names of the types, and whether a comma follows the last one. -/
  parameters? : Option (List String × Bool)
  first : Entry
  others : List Entry

/-- The tokens of the parameter types, if there are any. -/
def parameters : Option (List String × Bool) → List TokenKind
  | none => []
  | some (names, trailing) => enclosed (names.map fun name ↦ [.identifier name]) trailing

/-- The tokens of a test. -/
def TestText.kinds (t : TestText) : List TokenKind :=
  .keyword .perform :: .identifier t.owner :: .symbol .arrow :: .identifier t.method ::
    parameters t.parameters? ++ .symbol .colon :: block t.first t.others

/-- What a source consists of. -/
inductive Item where
  | unit (path : String)
  | inNamespace (name : String)
  | group (name : String)
  | test (t : TestText)

/-- The tokens of an item. -/
def Item.kinds : Item → List TokenKind
  | .unit path => [.keyword .use, .literal (.string path), .symbol .semicolon]
  | .inNamespace name =>
    [.keyword .use, .keyword .inNamespace, .identifier name, .symbol .semicolon]
  | .group name => [.keyword .testGroup, .identifier name, .symbol .semicolon]
  | .test t => t.kinds

/-- A sentence of the grammar: any items, one behind the other. -/
abbrev Program := List Item

/-- The tokens of a program. -/
def Program.kinds (p : Program) : List TokenKind := p.flatMap Item.kinds

/-- What stands behind the opening parenthesis of a list. -/
def listing (trailing : Bool) : List (List TokenKind) → List TokenKind
  | [] => [.symbol .rightParen]
  | [part] => if trailing then part ++ [.symbol .comma, .symbol .rightParen]
    else part ++ [.symbol .rightParen]
  | part :: next :: rest => part ++ .symbol .comma :: listing trailing (next :: rest)

/-- A list, read from its start. -/
theorem enclosed_eq (parts : List (List TokenKind)) (trailing : Bool) :
    enclosed parts trailing = .symbol .leftParen :: listing trailing parts := by
  rw [enclosed, List.append_assoc, List.cons_append]
  congr 1
  induction parts with
  | nil => simp [listing, List.intercalate]
  | cons part rest ih =>
    cases rest with
    | nil => cases trailing <;> simp [listing, List.intercalate]
    | cons next rest =>
      simp only [List.intercalate, List.intersperse_cons_cons, List.flatten_cons, ne_eq,
        reduceCtorEq, not_false_eq_true, and_true, List.append_assoc, List.singleton_append,
        listing] at ih ⊢
      rw [← ih]
      simp

end TestDeclaration.Grammar
