import Calculator.Binary64.Basic

/-!
# Remainders of floats

The remainder of a division whose quotient is rounded toward zero has the sign of the dividend and
is computed without rounding: on the finer of the two exponents both operands are integers.  The
remainder for a quotient rounded down follows from it and has the sign of the divisor.
-/

namespace Calculator
namespace Binary64

open Float.Model (UnpackedFloat)

/-- The remainder on the parts of two floats. -/
def remainderParts : UnpackedFloat → UnpackedFloat → UnpackedFloat
  | .notANumber, _ | _, .notANumber | .infinity _, _ | _, .zero _ => .notANumber
  | .zero sign, _ => .zero sign
  | .finite sign mantissa exponent positive, .infinity _ => .finite sign mantissa exponent positive
  | .finite sign mantissa exponent _, .finite _ divisor divisorExponent _ =>
    let common := min exponent divisorExponent
    let left := mantissa <<< (exponent - common).toNat
    let right := divisor <<< (divisorExponent - common).toNat
    if left % right = 0 then .zero sign
    else UnpackedFloat.round .binary64 sign (left % right) common

/-- The remainder of `x` by `y`; it is not a number if `x` is infinite or `y` is zero. -/
def remainder (x y : Float) : Float :=
  pack (remainderParts (unpack x) (unpack y))

/-- The remainder of `x` by `y` for a quotient rounded down: a zero has the sign of the divisor, and
a remainder of the other sign is moved up or down by one divisor. -/
def modulo (x y : Float) : Float :=
  let rest := remainder x y
  if rest == 0 then pack (.zero (sign y))
  else if decide (rest < 0) = decide (y < 0) then rest
  else rest + y

end Binary64
end Calculator
