/-!
# Line endings

A source may end its lines with a newline, with a carriage return, or with both. All
other modules see newlines only: `unify` passes over a text twice, and `unify_eq_read`
says that this equals one reading from left to right.
-/

namespace TestDeclaration.Text.LineEnding

/-- Replace each carriage return that stands before a newline, together with it, by one newline. -/
def joinPairs : List Char → List Char
  | '\r' :: '\n' :: rest => '\n' :: joinPairs rest
  | c :: rest => c :: joinPairs rest
  | [] => []

/-- Write a carriage return as a newline and keep every other character. -/
def loneReturn (c : Char) : Char := if c = '\r' then '\n' else c

/-- Write every line ending as one newline: pairs first, then the carriage returns that are left. -/
def unify (text : List Char) : List Char := (joinPairs text).map loneReturn

/-- Read a text once from left to right, taking the longest line ending at each place. -/
def read : List Char → List Char
  | '\r' :: '\n' :: rest => '\n' :: read rest
  | c :: rest => loneReturn c :: read rest
  | [] => []

/-- Two passes over a text give what one reading gives. -/
theorem unify_eq_read (text : List Char) : unify text = read text := by
  fun_induction read text with
  | case1 rest ih => simpa [unify, joinPairs, loneReturn] using ih
  | case2 c rest h ih =>
    rw [unify] at ih
    rw [unify, joinPairs, List.map_cons, ih]
    exact h
  | case3 => rfl

/-- A unified text holds no carriage return. -/
theorem return_not_mem_unify (text : List Char) : '\r' ∉ unify text := by
  simp only [unify, List.mem_map, not_exists, not_and, loneReturn]
  intro c _
  split <;> simp_all

/-- The unified form of a string. -/
def normalize (source : String) : String := String.ofList (unify source.toList)

end TestDeclaration.Text.LineEnding
