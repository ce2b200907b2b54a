import Calculator.Expression.Evaluate
import Calculator.Token.Tokenize

/-!
# Calculations

A calculation takes a source text to its tokens and the value of the expression they begin with.
-/

namespace Calculator

/-- A source text that has a value. -/
structure Calculation where
  /-- The tokens of the text, without an end marker. -/
  tokens : List Token
  /-- The value of the expression at their front. -/
  value : Value

/-- Tokenizes a source text, takes the end marker off and evaluates the other tokens. -/
def calculate (source : String) : Except EvalError Calculation :=
  let tokens := (tokenize source).dropLast
  (evaluate tokens).map (⟨tokens, ·⟩)

theorem calculate_eq (source : String) :
    calculate source = (evaluate (tokens source)).map (⟨tokens source, ·⟩) := by
  have unmarked : (tokenize source).dropLast = tokens source := List.dropLast_concat
  rw [calculate, unmarked]

end Calculator
