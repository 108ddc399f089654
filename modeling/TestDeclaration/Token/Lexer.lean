import TestDeclaration.Token
import TestDeclaration.Text.LineEnding

/-!
# From text to tokens

`Token.scan` splits a text into tokens and the layout between them, from left to right, and
stops at the first place where no token can be read. The readers below it know nothing of
positions: each takes a text and gives a value together with the number of characters that it
took, or a problem together with the number of characters in front of it. Positions follow from
the text passed over.
-/

namespace TestDeclaration

open TestDeclaration.Number TestDeclaration.Text

/-- The kinds of numeric literals. -/
inductive NumberKind where
  | int | uint | long | short | float | double | byte
  deriving DecidableEq, Repr

namespace NumberKind

/-- The type of the literals of a kind. -/
def primitive : NumberKind → Primitive
  | .int => .int
  | .uint => .uint
  | .long => .long
  | .short => .short
  | .float => .float
  | .double => .double
  | .byte => .byte

/-- The kind that a letter behind a number asks for. -/
def ofLetter? : Char → Option NumberKind
  | 'i' => some .int
  | 'u' => some .uint
  | 'l' => some .long
  | 's' => some .short
  | 'f' => some .float
  | 'd' => some .double
  | 'b' => some .byte
  | _ => none

/-- A finite number as a scalar. -/
def finite? {f : Format} (make : Binary f → Scalar) (x : Binary f) : Option Scalar :=
  if x.isFinite then some (make x) else none

/-- The scalar that a sign, the digits before the point and the digits behind it write, if it is
in the range of the kind. Kinds of whole numbers have no digits behind the point. -/
def scalar? (kind : NumberKind) (negative : Bool) (whole fraction : List Char) : Option Scalar :=
  let integer : Int := if negative then -(ofDigits whole : Int) else ofDigits whole
  let decimal := Decimal.ofParts negative whole fraction
  match kind with
  | .int => (int? integer).map .int
  | .uint => (uint? integer).map .uint
  | .long => (long? integer).map .long
  | .short => (short? integer).map .short
  | .byte => (byte? integer).map .byte
  | .float => finite? .float (decimal.toBinary .single)
  | .double => finite? .double (decimal.toBinary .double)

end NumberKind

/-- Why no token can be read. -/
inductive LexProblem where
  | unexpectedCharacter (c : Char)
  | rawTextExpected
  | endOfFile
  | endOfLine
  | invalidEscape (c : Char)
  | emptyCharacter
  | unclosedCharacter
  | secondPoint
  | negativeUint
  | negativeByte
  | byteWithPoint
  | integerWithPoint
  | outOfRange (number : List Char) (kind : NumberKind)
  deriving DecidableEq, Repr

namespace LexProblem

/-- The wording of a problem. -/
def message : LexProblem → String
  | .unexpectedCharacter c => "Unexpected character '" ++ c.toString ++ "'"
  | .rawTextExpected => "Expected raw text literal after '&'"
  | .endOfFile => "Reached end of file when parsing literal"
  | .endOfLine => "Reached end of line when parsing literal"
  | .invalidEscape c => "Invalid escape sequence '\\" ++ c.toString ++ "'"
  | .emptyCharacter => "Empty character literal"
  | .unclosedCharacter => "Expected \"'\" to close character literal"
  | .secondPoint => "Unexpected '.' in numeric literal"
  | .negativeUint => "Unsigned int literal cannot be negative"
  | .negativeByte => "Byte literal cannot be negative"
  | .byteWithPoint => "Byte literal cannot have decimal point"
  | .integerWithPoint => "Integer literal cannot have decimal point"
  | .outOfRange number kind =>
    "Numeric literal '" ++ String.ofList number ++ "' is out of range for " ++ kind.primitive.name

end LexProblem

/-- A text without a token at some place: the problem, and the character there. -/
structure LexError where
  problem : LexProblem
  span : Span
  deriving DecidableEq, Repr

namespace LexError

/-- The error with its line and column. -/
def text (e : LexError) : String :=
  "Lexer Error: " ++ e.problem.message ++ " (line " ++ toString e.span.start.line ++ " column " ++
    toString e.span.start.column ++ ")"

end LexError

namespace Token

/-- The outcome of reading at the start of a text: a value and the characters it took, or a
problem and the characters in front of it. -/
abbrev Reading (α : Type) := Except (LexProblem × Nat) (α × Nat)

namespace Reading

/-- The outcome for a text with `n` more characters in front. -/
def after {α : Type} (n : Nat) : Reading α → Reading α
  | .ok (a, k) => .ok (a, n + k)
  | .error (p, k) => .error (p, n + k)

/-- The outcome with another value. -/
def map {α β : Type} (f : α → β) : Reading α → Reading β
  | .ok (a, k) => .ok (f a, k)
  | .error e => .error e

end Reading

/-- Whether a character separates tokens. -/
def isBlank (c : Char) : Bool := c == ' ' || c == '\t' || c == '\n'

/-- The number of characters of layout in front of the first token: blanks and comments. A
comment starts with two colons and lasts until the end of its line. -/
def layoutLength : (inComment : Bool) → List Char → Nat
  | _, [] => 0
  | true, c :: rest => 1 + layoutLength (c != '\n') rest
  | false, c :: rest =>
    if isBlank c then 1 + layoutLength false rest
    else if c = ':' ∧ rest.head? = some ':' then 1 + layoutLength true rest
    else 0

/-- Whether a character can start an identifier. -/
def isIdentifierStart (c : Char) : Bool := c.isAlpha || c == '_'

/-- Whether a character can continue an identifier. -/
def isIdentifierBody (c : Char) : Bool := isIdentifierStart c || c.isDigit || c == '.'

/-- The token that a word is: a truth value, a keyword or an identifier. -/
def ofWord (word : String) : TokenKind :=
  if word = "true" then .literal (.bool true)
  else if word = "false" then .literal (.bool false)
  else match Keyword.ofWord? word with
    | some k => .keyword k
    | none => .identifier word

/-- Read a word: as many characters as an identifier can have. -/
def word (text : List Char) : Reading TokenKind :=
  let letters := text.takeWhile isIdentifierBody
  .ok (ofWord (String.ofList letters), letters.length)

/-- The character that an escape stands for. -/
def unescape? : Char → Option Char
  | '\\' => some '\\'
  | 'n' => some '\n'
  | 't' => some '\t'
  | '\'' => some '\''
  | '"' => some '"'
  | _ => none

/-- Read the body of a string up to and with the closing quote. In a raw string a backslash is
a character like any other. -/
def stringBody (raw : Bool) : (escaped : Bool) → List Char → Reading (List Char)
  | _, [] => .error (.endOfFile, 0)
  | true, c :: rest =>
    if c = '\n' then .error (.endOfLine, 0)
    else match unescape? c with
      | some value => ((stringBody raw false rest).map (value :: ·)).after 1
      | none => .error (.invalidEscape c, 0)
  | false, c :: rest =>
    if c = '\n' then .error (.endOfLine, 0)
    else if c = '"' then .ok ([], 1)
    else if c = '\\' ∧ raw = false then (stringBody raw true rest).after 1
    else ((stringBody raw false rest).map (c :: ·)).after 1

/-- Read the quote that closes a character literal. -/
def closing (value : Char) : List Char → Reading Char
  | '\'' :: _ => .ok (value, 1)
  | _ => .error (.unclosedCharacter, 0)

/-- Read what follows a backslash in a character literal. -/
def escapedBody : List Char → Reading Char
  | [] => .error (.endOfFile, 0)
  | c :: rest =>
    if c = '\n' then .error (.endOfLine, 0)
    else match unescape? c with
      | some value => (closing value rest).after 1
      | none => .error (.invalidEscape c, 0)

/-- Read the body of a character literal up to and with the closing quote. -/
def charBody (raw : Bool) : List Char → Reading Char
  | [] => .error (.endOfFile, 0)
  | c :: rest =>
    if c = '\n' then .error (.endOfLine, 0)
    else if c = '\'' then .error (.emptyCharacter, 0)
    else if c = '\\' ∧ raw = false then (escapedBody rest).after 1
    else (closing c rest).after 1

/-- What the letter behind a number rules out. -/
def objection? (kind : NumberKind) (negative point : Bool) : Option LexProblem :=
  match kind with
  | .uint =>
    if negative then some .negativeUint else if point then some .integerWithPoint else none
  | .byte =>
    if negative then some .negativeByte else if point then some .byteWithPoint else none
  | .int | .long | .short => if point then some .integerWithPoint else none
  | .float | .double => none

/-- The parts of a written number: its sign, the digits before the point, and the digits behind
it if there is a point. -/
structure Numeral where
  negative : Bool
  whole : List Char
  fraction? : Option (List Char)
  deriving DecidableEq, Repr

namespace Numeral

/-- The text of a numeral. -/
def text (n : Numeral) : List Char :=
  (if n.negative then ['-'] else []) ++ n.whole ++
    (match n.fraction? with | some fraction => '.' :: fraction | none => [])

/-- Whether a numeral has a point. -/
def hasPoint (n : Numeral) : Bool := n.fraction?.isSome

/-- The numeral at the start of a text, and the rest of the text. -/
def split (text : List Char) : Numeral × List Char :=
  let (negative, unsigned) := match text with
    | '-' :: rest => (true, rest)
    | _ => (false, text)
  let whole := unsigned.takeWhile Char.isDigit
  match unsigned.dropWhile Char.isDigit with
  | '.' :: rest =>
    (⟨negative, whole, some (rest.takeWhile Char.isDigit)⟩, rest.dropWhile Char.isDigit)
  | rest => (⟨negative, whole, none⟩, rest)

/-- The scalar of some kind that a numeral writes, after which `taken` characters are read. -/
def finish (n : Numeral) (kind : NumberKind) (taken : Nat) : Reading Scalar :=
  match kind.scalar? n.negative n.whole (n.fraction?.getD []) with
  | some value => .ok (value, taken)
  | none => .error (.outOfRange n.text kind, 0)

end Numeral

/-- Read a number: a sign, digits, at most one point, and the letter of a kind. Without a letter
it is an int, or a float if it has a point. -/
def number (text : List Char) : Reading Scalar :=
  let (n, rest) := Numeral.split text
  let taken := n.text.length
  if n.hasPoint ∧ rest.head? = some '.' then .error (.secondPoint, taken)
  else match rest.head?.bind NumberKind.ofLetter? with
    | some kind =>
      match objection? kind n.negative n.hasPoint with
      | some problem => .error (problem, taken)
      | none => n.finish kind (taken + 1)
    | none => n.finish (if n.hasPoint then .float else .int) taken

/-- Read a string behind its opening quote. -/
def stringLiteral (raw : Bool) (text : List Char) : Reading TokenKind :=
  (stringBody raw false text).map fun value ↦ .literal (.string (String.ofList value))

/-- Read a character literal behind its opening quote. -/
def charLiteral (raw : Bool) (text : List Char) : Reading TokenKind :=
  (charBody raw text).map fun value ↦ .literal (.char value)

/-- Read a raw literal behind its mark. -/
def rawLiteral : List Char → Reading TokenKind
  | '"' :: rest => (stringLiteral true rest).after 1
  | '\'' :: rest => (charLiteral true rest).after 1
  | _ => .error (.rawTextExpected, 0)

/-- Read a symbol of one character, or else of two. -/
def symbol (c : Char) (rest : List Char) : Reading TokenKind :=
  match Symbol.ofChar? c with
  | some s => .ok (.symbol s, 1)
  | none =>
    match rest.head?.bind (Symbol.ofPair? c) with
    | some s => .ok (.symbol s, 2)
    | none => .error (.unexpectedCharacter c, 0)

/-- Read the token that starts with the character `c`, which is no layout. -/
def one (c : Char) (rest : List Char) : Reading TokenKind :=
  if c = '"' then (stringLiteral false rest).after 1
  else if c = '\'' then (charLiteral false rest).after 1
  else if c = '&' then (rawLiteral rest).after 1
  else if isIdentifierStart c then word (c :: rest)
  else if c.isDigit ∨ (c = '-' ∧ rest.head?.any Char.isDigit) then
    (number (c :: rest)).map .literal
  else symbol c rest

private theorem pos_of_after {α : Type} {r : Reading α} {k n : Nat} {a : α} (hk : 0 < k)
    (h : r.after k = .ok (a, n)) : 0 < n := by
  cases r with
  | error e => cases h
  | ok v => cases h; omega

private theorem taken_of_finish {n : Numeral} {kind : NumberKind} {taken k : Nat} {v : Scalar}
    (h : n.finish kind taken = .ok (v, k)) : k = taken := by
  unfold Numeral.finish at h
  split at h <;> cases h
  rfl

/-- The numeral of a text that starts with a digit or a sign is not empty. -/
private theorem text_split_ne_nil {c : Char} (rest : List Char) (h : c.isDigit ∨ c = '-') :
    (Numeral.split (c :: rest)).1.text ≠ [] := by
  by_cases hc : c = '-'
  · subst hc
    unfold Numeral.split
    simp only
    split <;> simp [Numeral.text]
  · have hd : c.isDigit = true := h.resolve_right hc
    have hm : (match c :: rest with
        | '-' :: rest => (true, rest)
        | _ => (false, c :: rest)) = (false, c :: rest) := by
      split
      · next heq => exact absurd (List.cons.inj heq).1 hc
      · rfl
    unfold Numeral.split
    rw [hm]
    simp only [List.takeWhile_cons, hd, if_true]
    split <;> simp [Numeral.text]

/-- A number takes at least one character. -/
private theorem pos_of_number {c : Char} {rest : List Char} {v : Scalar} {n : Nat}
    (hc : c.isDigit ∨ c = '-') (h : number (c :: rest) = .ok (v, n)) : 0 < n := by
  have hpos := List.length_pos_iff.2 (text_split_ne_nil rest hc)
  unfold number at h
  simp only at h
  split at h
  · cases h
  · split at h
    · split at h
      · cases h
      · rw [taken_of_finish h]; omega
    · rw [taken_of_finish h]; exact hpos

/-- A token takes at least one character. -/
theorem pos_of_one {c : Char} {rest : List Char} {kind : TokenKind} {n : Nat}
    (h : one c rest = .ok (kind, n)) : 0 < n := by
  unfold one at h
  split at h
  · exact pos_of_after (by decide) h
  split at h
  · exact pos_of_after (by decide) h
  split at h
  · exact pos_of_after (by decide) h
  split at h
  · next hs =>
    have hb : isIdentifierBody c = true := by simp [isIdentifierBody, hs]
    unfold word at h
    cases h
    simp [hb]
  split at h
  · next hd =>
    cases hn : number (c :: rest) with
    | error e => rw [hn] at h; cases h
    | ok v =>
      rw [hn] at h
      cases h
      exact pos_of_number (hd.imp id And.left) hn
  · unfold symbol at h
    split at h
    · cases h; decide
    · split at h <;> cases h
      decide

/-- The tokens of a text up to its end or to the first error. -/
structure Scan where
  tokens : List Token
  error? : Option LexError
  deriving DecidableEq

/-- The error for a problem at some position of a text. -/
def errorAt (problem : LexProblem) (p : Position) (text : List Char) : LexError :=
  ⟨problem, p, byteLength (text.take 1)⟩

/-- Read tokens, where `text` starts at the position `p`. -/
def scanFrom (p : Position) (text : List Char) : Scan :=
  let gap := layoutLength false text
  let start := p.advance (text.take gap)
  match hrest : text.drop gap with
  | [] => ⟨[], none⟩
  | c :: rest =>
    match hone : one c rest with
    | .error (problem, n) =>
      ⟨[], some (errorAt problem (start.advance ((c :: rest).take n)) ((c :: rest).drop n))⟩
    | .ok (kind, n) =>
      let lexeme := (c :: rest).take n
      have : rest.length + 1 - n < text.length := by
        have hlength : text.length - gap = rest.length + 1 := by
          rw [← List.length_drop, hrest, List.length_cons]
        have := pos_of_one hone
        omega
      let others := scanFrom (start.advance lexeme) ((c :: rest).drop n)
      ⟨⟨kind, start, byteLength lexeme⟩ :: others.tokens, others.error?⟩
  termination_by text.length
  decreasing_by simpa using this

/-- The tokens of a source. Its line endings may have any form; positions count in the text
with newlines. -/
def scan (source : String) : Scan := scanFrom Position.start (LineEnding.unify source.toList)

/-- The tokens of a source, or the first error. -/
def lex (source : String) : Except LexError (List Token) :=
  match scan source with
  | ⟨tokens, none⟩ => .ok tokens
  | ⟨_, some e⟩ => .error e

end Token

end TestDeclaration
