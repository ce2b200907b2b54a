/-!
# Built-in functions

The functions that an expression can call, with their names and numbers of arguments.
-/

namespace Calculator

/-- Functions that an expression can call. -/
inductive Builtin
  | sin
  | cos
  | tan
  /-- Square root. -/
  | sqrt
  /-- Decimal logarithm. -/
  | log
  /-- Natural logarithm. -/
  | ln
  /-- Absolute value. -/
  | abs
  /-- Power of a base and an exponent. -/
  | pow
  deriving DecidableEq, Repr

namespace Builtin

/-- The name under which a function is called. -/
def name : Builtin → String
  | sin => "sin"
  | cos => "cos"
  | tan => "tan"
  | sqrt => "sqrt"
  | log => "log"
  | ln => "ln"
  | abs => "abs"
  | pow => "pow"

/-- The number of arguments of a function. -/
def arity : Builtin → Nat
  | sin | cos | tan | sqrt | log | ln | abs => 1
  | pow => 2

/-- Every function. -/
def all : List Builtin :=
  [sin, cos, tan, sqrt, log, ln, abs, pow]

/-- The function with the given name. -/
def ofName? (name : String) : Option Builtin :=
  all.find? (·.name = name)

@[simp]
theorem ofName?_name (function : Builtin) : ofName? function.name = some function := by
  cases function <;> rfl

theorem name_eq_of_ofName? {name : String} {function : Builtin}
    (found : ofName? name = some function) : function.name = name := by
  simpa using List.find?_some found

theorem name_injective {left right : Builtin} (names : left.name = right.name) : left = right := by
  have found := ofName?_name left
  rw [names, ofName?_name right] at found
  exact (Option.some.inj found).symm

end Builtin
end Calculator
