import TestDeclaration.Token.Lexer

/-!
# Tokens on demand

A stream reads the tokens of a source one at a time. The end of the text closes it, and so does the
first error; a closed stream gives nothing more. `TestDeclaration.Proofs.Token.Stream` says that it
gives what `Token.scan` gives.
-/

namespace TestDeclaration.Token

open TestDeclaration.Text

/-- A text to read on from some position, unless the stream is closed. -/
inductive Stream where
  | reading (position : Position) (text : List Char)
  | closed
  deriving DecidableEq

namespace Stream

/-- The stream of a source, in front of its first token. -/
def ofSource (source : String) : Stream :=
  .reading Position.start (LineEnding.unify source.toList)

/-- The next token or error, if there is one, and the stream behind it. -/
def next : Stream → Option (Except LexError Token) × Stream
  | .closed => (none, .closed)
  | .reading p text =>
    let gap := layoutLength false text
    let start := p.advance (text.take gap)
    match text.drop gap with
    | [] => (none, .closed)
    | c :: rest =>
      match one c rest with
      | .error (problem, n) =>
        let place := start.advance ((c :: rest).take n)
        (some (.error (errorAt problem place ((c :: rest).drop n))), .closed)
      | .ok (kind, n) =>
        let lexeme := (c :: rest).take n
        (some (.ok ⟨kind, start, byteLength lexeme⟩),
          .reading (start.advance lexeme) ((c :: rest).drop n))

/-- The stream after it was asked some times. -/
def after : Nat → Stream → Stream
  | 0, s => s
  | n + 1, s => after n s.next.2

/-- What a stream answers after it was asked `n` times. -/
def answer? (s : Stream) (n : Nat) : Option (Except LexError Token) := (s.after n).next.1

end Stream

end TestDeclaration.Token
