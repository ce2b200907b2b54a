import Calculator.Value.Basic
import Calculator.Numeral.Integer
import Calculator.Token.Kind

/-!
# Evaluation errors

An evaluation fails for a cause at one token.  The cause carries what the message quotes, and the
position is the index of the token, or the number of tokens where they ran out.
-/

namespace Calculator

/-- The marks around and between the arguments of a call. -/
inductive Delimiter
  | leftParen
  | comma
  | rightParen
  deriving DecidableEq, Repr

/-- The kind of token of a delimiter. -/
def Delimiter.kind : Delimiter → Kind
  | leftParen => .punctuation .leftParen
  | comma => .punctuation .comma
  | rightParen => .punctuation .rightParen

/-- What had to come next. -/
inductive Expected
  | delimiter (mark : Delimiter)
  /-- A literal or a call. -/
  | expression
  deriving DecidableEq, Repr

/-- Why an evaluation fails. -/
inductive Cause
  /-- An operation has no result. -/
  | fault (reason : Fault)
  /-- The tokens ran out where an operand had to come. -/
  | endOfTokens
  /-- Something else had to come than the text found, or than the end of the tokens. -/
  | unexpected (expected : Expected) (found : Option String)
  /-- A name that is not a function. -/
  | unknownName (name : String)
  /-- A call inside too many others. -/
  | nestingTooDeep
  deriving DecidableEq, Repr

/-- The cause of a failed evaluation with the index of its token. -/
structure EvalError where
  /-- Why the evaluation failed. -/
  cause : Cause
  /-- Index of the token that explains the failure. -/
  position : Nat
  deriving DecidableEq, Repr

/-- The greatest number of calls inside one another. -/
def maxNesting : Nat := 200

/-- The message of a fault. -/
def Fault.message : Fault → List Char
  | divisionByZero => "division by zero".toList
  | moduloByZero => "modulo by zero".toList
  | overflow => "numeric overflow".toList
  | domain function => "math domain error in ".toList ++ function.name.toList

/-- The name of what had to come next. -/
def Expected.message : Expected → List Char
  | delimiter .leftParen => "'('".toList
  | delimiter .comma => "','".toList
  | delimiter .rightParen => "')'".toList
  | expression => "an expression".toList

/-- The message of a cause. -/
def Cause.message : Cause → List Char
  | fault reason => reason.message
  | endOfTokens => "unexpected end of expression".toList
  | unexpected expected none => "expected ".toList ++ expected.message
  | unexpected expected (some found) =>
    "expected ".toList ++ expected.message ++ ", got '".toList ++ found.toList ++ ['\'']
  | unknownName name => "unknown identifier '".toList ++ name.toList ++ ['\'']
  | nestingTooDeep => "function calls nested deeper than ".toList ++ Numeral.ofNat maxNesting

/-- The message of an error: its cause and its position. -/
def EvalError.message (error : EvalError) : List Char :=
  error.cause.message ++ " at position ".toList ++ Numeral.ofNat error.position

end Calculator
