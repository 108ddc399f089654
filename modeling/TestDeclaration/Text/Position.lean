/-!
# Positions and spans

A position is where a character stands in a text: how many bytes precede it in UTF-8, its
line and its column. Lines and columns count from one, and columns count characters.
-/

namespace TestDeclaration.Text

/-- A place in a text, between two characters. -/
structure Position where
  offset : Nat
  line : Nat
  column : Nat
  deriving DecidableEq, Repr, Inhabited

namespace Position

/-- The place before the first character. -/
def start : Position := ⟨0, 1, 1⟩

/-- The place after one more character. -/
def next (p : Position) (c : Char) : Position :=
  if c = '\n' then ⟨p.offset + c.utf8Size, p.line + 1, 1⟩
  else ⟨p.offset + c.utf8Size, p.line, p.column + 1⟩

/-- The place after some more text. -/
def advance (p : Position) (text : List Char) : Position := text.foldl next p

/-- Passing over nothing changes no position. -/
@[simp] theorem advance_nil (p : Position) : p.advance [] = p := rfl

/-- A text is passed over character by character. -/
@[simp] theorem advance_cons (p : Position) (c : Char) (text : List Char) :
    p.advance (c :: text) = (p.next c).advance text := rfl

/-- Passing over two texts is passing over one and then the other. -/
theorem advance_append (p : Position) (a b : List Char) :
    p.advance (a ++ b) = (p.advance a).advance b :=
  List.foldl_append

end Position

/-- The number of bytes of a text in UTF-8. -/
def byteLength : List Char → Nat
  | [] => 0
  | c :: text => c.utf8Size + byteLength text

/-- The empty text has no bytes. -/
@[simp] theorem byteLength_nil : byteLength [] = 0 := rfl

/-- A character has the bytes of its encoding. -/
@[simp] theorem byteLength_cons (c : Char) (text : List Char) :
    byteLength (c :: text) = c.utf8Size + byteLength text := rfl

/-- A stretch of text: where it starts, and its length in bytes. -/
structure Span where
  start : Position
  length : Nat
  deriving DecidableEq, Repr, Inhabited

namespace Span

/-- The empty span before the first character. -/
def atStart : Span := ⟨Position.start, 0⟩

/-- The empty span behind another one. The column moves by the length in bytes. -/
def behind (s : Span) : Span :=
  ⟨⟨s.start.offset + s.length, s.start.line, s.start.column + s.length⟩, 0⟩

end Span

end TestDeclaration.Text
