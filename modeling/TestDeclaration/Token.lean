import TestDeclaration.Scalar
import TestDeclaration.Text.Position

/-!
# Tokens

The words of a test declaration: identifiers, keywords, symbols and literals. Each token has
one canonical spelling, which `TestDeclaration.Token.Lexer` reads back.
-/

namespace TestDeclaration

/-- The words that are no identifiers. -/
inductive Keyword where
  | use | testGroup | perform | expect | testCase | create | throws | onTarget | inNamespace
  | instanceOf
  deriving DecidableEq, Repr

namespace Keyword

/-- The word of a keyword. -/
def word : Keyword → String
  | .use => "using"
  | .testGroup => "test_group"
  | .perform => "do"
  | .expect => "expect"
  | .testCase => "case"
  | .create => "new"
  | .throws => "throws"
  | .onTarget => "on"
  | .inNamespace => "namespace"
  | .instanceOf => "instanceof"

/-- All keywords. -/
def all : List Keyword :=
  [.use, .testGroup, .perform, .expect, .testCase, .create, .throws, .onTarget, .inNamespace,
    .instanceOf]

/-- The keyword that a word is. -/
def ofWord? (w : String) : Option Keyword := all.find? fun k ↦ k.word == w

/-- The word of a keyword is that keyword. -/
theorem ofWord?_word (k : Keyword) : ofWord? k.word = some k := by
  cases k <;> rfl

/-- A word is at most the keyword whose word it is. -/
theorem word_of_ofWord? {w : String} {k : Keyword} (h : ofWord? w = some k) : k.word = w := by
  simpa using List.find?_some h

end Keyword

/-- Punctuation. -/
inductive Symbol where
  | arrow | semicolon | leftParen | rightParen | comma | colon | questionMark | tilde
  deriving DecidableEq, Repr

namespace Symbol

/-- How a symbol is written. -/
def text : Symbol → String
  | .arrow => "->"
  | .semicolon => ";"
  | .leftParen => "("
  | .rightParen => ")"
  | .comma => ","
  | .colon => ":"
  | .questionMark => "?"
  | .tilde => "~"

/-- The symbol that one character is. No text is read as a question mark. -/
def ofChar? : Char → Option Symbol
  | ';' => some .semicolon
  | '(' => some .leftParen
  | ')' => some .rightParen
  | ',' => some .comma
  | ':' => some .colon
  | '~' => some .tilde
  | _ => none

/-- The symbol that two characters are. -/
def ofPair? : Char → Char → Option Symbol
  | '-', '>' => some .arrow
  | _, _ => none

end Symbol

/-- A token without its place. -/
inductive TokenKind where
  | identifier (name : String)
  | keyword (k : Keyword)
  | symbol (s : Symbol)
  | literal (value : Scalar)
  deriving DecidableEq

/-- A token and the stretch of text that it was read from. -/
structure Token where
  kind : TokenKind
  span : Text.Span
  deriving DecidableEq

namespace Scalar

/-- A character inside quotes: backslash, newline, tab and the quote itself are escaped. -/
def escape (quote c : Char) : List Char :=
  if c = '\\' then ['\\', '\\']
  else if c = '\n' then ['\\', 'n']
  else if c = '\t' then ['\\', 't']
  else if c = quote then ['\\', c]
  else [c]

/-- The canonical literal of a scalar. Numbers other than ints carry the letter of their kind. -/
def spelling : Scalar → List Char
  | .string s => '"' :: s.toList.flatMap (escape '"') ++ ['"']
  | .char c => '\'' :: escape '\'' c ++ ['\'']
  | x@(.bool _) | x@(.int _) => x.text
  | x@(.uint _) => x.text ++ ['u']
  | x@(.long _) => x.text ++ ['l']
  | x@(.short _) => x.text ++ ['s']
  | x@(.float _) => x.text ++ ['f']
  | x@(.double _) => x.text ++ ['d']
  | x@(.byte _) => x.text ++ ['b']

end Scalar

namespace TokenKind

/-- The canonical text of a token. -/
def spelling : TokenKind → List Char
  | .identifier name => name.toList
  | .keyword k => k.word.toList
  | .symbol s => s.text.toList
  | .literal value => value.spelling

/-- The line that describes a token in a dump. -/
def description (kind : TokenKind) : String :=
  let label := match kind with
    | .identifier _ => "IDENTIFIER"
    | .keyword _ => "KEYWORD"
    | .symbol _ => "SYMBOL"
    | .literal value => "LITERAL<" ++ value.primitive.name ++ ">"
  label ++ " " ++ String.ofList kind.spelling

end TokenKind

end TestDeclaration
