import Calculator.Binary64.Library
import Calculator.Binary64.Remainder
import Calculator.Token.Kind
import Calculator.Value.Basic

/-!
# Arithmetic on values

Two integers give an exact integer or overflow; with a float on either side both operands become
floats.  Quotients are always floats.
-/

namespace Calculator

open Binary64 (Library)

/-- The product, if 64 bits hold it. -/
def product? (m n : Int64) : Option Int64 :=
  int64? (m.toInt * n.toInt)

/-- The remainder for a quotient rounded down: the one for a quotient rounded toward zero, moved by
one divisor if its sign is not that of the divisor. -/
def flooredRemainder (m n : Int64) : Int64 :=
  let rest := m % n
  if rest ≠ 0 ∧ decide (rest < 0) ≠ decide (n < 0) then rest + n else rest

/-- The product of a number and a power, by squaring.  It is given up at the first product that 64
bits do not hold, and no square is taken that is not needed. -/
def powerOnto (accumulated base : Int64) (exponent : Nat) : Option Int64 :=
  if exponent = 0 then some accumulated
  else if exponent = 1 then product? accumulated base
  else
    (if exponent % 2 = 0 then some accumulated else product? accumulated base).bind fun product =>
      (product? base base).bind fun square => powerOnto product square (exponent / 2)
termination_by exponent

/-- The power, if 64 bits hold it.  With an exponent of more than 32 bits this leaves the bases 0, 1
and -1, for which only the parity of the exponent counts. -/
def power? (base : Int64) (exponent : Nat) : Option Int64 :=
  if exponent < 4294967296 then powerOnto 1 base exponent
  else if base = 0 ∨ base = 1 then some base
  else if base = -1 then some (if exponent % 2 = 0 then 1 else -1)
  else none

namespace Value

/-- Sum. -/
def add : Value → Value → Except Fault Value
  | integer m, integer n => ofInt (m.toInt + n.toInt)
  | left, right => .ok (float (left.toFloat + right.toFloat))

/-- Difference. -/
def sub : Value → Value → Except Fault Value
  | integer m, integer n => ofInt (m.toInt - n.toInt)
  | left, right => .ok (float (left.toFloat - right.toFloat))

/-- Product. -/
def mul : Value → Value → Except Fault Value
  | integer m, integer n => ofInt (m.toInt * n.toInt)
  | left, right => .ok (float (left.toFloat * right.toFloat))

/-- Quotient. -/
def div (left right : Value) : Except Fault Value :=
  if right.isZero then .error .divisionByZero
  else .ok (float (left.toFloat / right.toFloat))

/-- Remainder for a quotient rounded down, so that it has the sign of the divisor. -/
def mod (left right : Value) : Except Fault Value :=
  if right.isZero then .error .moduloByZero
  else
    match left, right with
    | integer m, integer n => .ok (integer (flooredRemainder m n))
    | left, right => .ok (float (Binary64.modulo left.toFloat right.toFloat))

/-- Absolute value. -/
def abs : Value → Except Fault Value
  | integer n => ofInt n.toInt.natAbs
  | float x => .ok (float x.abs)
  | signalingNaN => .ok signalingNaN

/-- Power of a float. -/
def floatPow (power : Float → Float → Float) (base exponent : Float) : Except Fault Value :=
  if base == 0 && exponent < 0 then .error .divisionByZero
  else if base < 0 && Binary64.hasFraction exponent then .error (.domain .pow)
  else
    let result := power base exponent
    if result.isInf && base.isFinite && exponent.isFinite then .error .overflow
    else .ok (float result)

/-- Power, with a library's powers of floats; it stays an integer for an integer base and an integer
exponent that is not negative.  Every power with an operand that signals is not a number, whereas a
quiet one has the power 1 for the exponent 0, and is an exponent with the power 1 for the base 1. -/
def powWith (power : Float → Float → Float) : Value → Value → Except Fault Value
  | integer base, integer exponent =>
    if 0 ≤ exponent.toInt then ofInt64? (power? base exponent.toInt.toNat)
    else floatPow power (integer base).toFloat (integer exponent).toFloat
  | signalingNaN, _ | _, signalingNaN => .ok (float Binary64.nan)
  | base, exponent => floatPow power base.toFloat exponent.toFloat

/-- Power. -/
def pow : Value → Value → Except Fault Value :=
  powWith Library.machine.pow

end Value

/-- The operation of an operator. -/
def Operator.apply : Operator → Value → Value → Except Fault Value
  | .plus => Value.add
  | .minus => Value.sub
  | .multiply => Value.mul
  | .divide => Value.div
  | .modulo => Value.mod
  | .power => Value.pow

namespace Builtin

/-- Applies a float function within its domain. -/
def onDomain (function : Builtin) (domain : Float → Bool) (apply : Float → Float)
    (argument : Value) : Except Fault Value :=
  if domain argument.toFloat then .ok (.float (apply argument.toFloat))
  else .error (.domain function)

/-- Applies a function to as many arguments as it takes, with the functions of a library. -/
def callWith (library : Library) :
    (function : Builtin) → Vector Value function.arity → Except Fault Value
  | sin, arguments => onDomain sin (fun x => !x.isInf) library.sin arguments[0]
  | cos, arguments => onDomain cos (fun x => !x.isInf) library.cos arguments[0]
  | tan, arguments => onDomain tan (fun x => !x.isInf) library.tan arguments[0]
  | sqrt, arguments => onDomain sqrt (fun x => 0 ≤ x || x.isNaN) Float.sqrt arguments[0]
  | log, arguments => onDomain log (fun x => 0 < x || x.isNaN) library.log10 arguments[0]
  | ln, arguments => onDomain ln (fun x => 0 < x || x.isNaN) library.log arguments[0]
  | abs, arguments => arguments[0].abs
  | pow, arguments => arguments[0].powWith library.pow arguments[1]

/-- Applies a function to as many arguments as it takes. -/
def call (function : Builtin) (arguments : Vector Value function.arity) : Except Fault Value :=
  function.callWith .machine arguments

end Builtin
end Calculator
