/-!
# Positions in a source text

A position names a line and a column, both counted from one.  Columns count characters, and a
newline belongs to the line that it ends.
-/

namespace Calculator

/-- A place in a source text. -/
structure Position where
  /-- Number of the line, from one. -/
  line : Nat
  /-- Number of the character within its line, from one. -/
  column : Nat
  deriving DecidableEq, Repr

namespace Position

/-- The place of the first character of a text. -/
def start : Position := ⟨1, 1⟩

/-- The place just after one character. -/
def step (position : Position) (character : Char) : Position :=
  if character = '\n' then ⟨position.line + 1, 1⟩ else ⟨position.line, position.column + 1⟩

/-- The place just after a text. -/
def advance (position : Position) (text : List Char) : Position :=
  text.foldl step position

@[simp]
theorem step_newline (position : Position) : position.step '\n' = ⟨position.line + 1, 1⟩ := rfl

theorem step_of_ne_newline (position : Position) {character : Char} (ordinary : character ≠ '\n') :
    position.step character = ⟨position.line, position.column + 1⟩ := by
  simp [step, ordinary]

@[simp]
theorem advance_nil (position : Position) : position.advance [] = position := rfl

@[simp]
theorem advance_cons (position : Position) (character : Char) (text : List Char) :
    position.advance (character :: text) = (position.step character).advance text := rfl

theorem advance_append (position : Position) (left right : List Char) :
    position.advance (left ++ right) = (position.advance left).advance right := by
  simp [advance, List.foldl_append]

end Position
end Calculator
