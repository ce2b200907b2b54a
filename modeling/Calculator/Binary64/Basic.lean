/-!
# Binary floating-point numbers

A float is taken apart into its class, sign, mantissa and exponent, and whatever is exact is said
of these parts.
-/

namespace Calculator
namespace Binary64

open Float.Model (UnpackedFloat)
open Float.Model.UnpackedFloat (Sign)

/-- Class, sign, mantissa and exponent of a float. -/
def unpack (x : Float) : UnpackedFloat :=
  x.toModel.unpack

/-- The float with the given parts. -/
def pack (parts : UnpackedFloat) : Float :=
  .ofModel (.pack parts)

/-- The float that is not a number. -/
def nan : Float :=
  pack .notANumber

/-- The float nearest to an integer; a tie goes to the even mantissa. -/
def ofInt (n : Int) : Float :=
  .ofModel (.ofInt n)

/-- The sign of a float; one that is not a number counts as positive. -/
def sign (x : Float) : Sign :=
  match unpack x with
  | .notANumber => .positive
  | .infinity sign | .zero sign | .finite sign _ _ _ => sign

/-- Whether a float is an integer. -/
def isIntegral (x : Float) : Bool :=
  match unpack x with
  | .zero _ => true
  | .finite _ mantissa exponent _ => mantissa % (1 <<< (-exponent).toNat) = 0
  | .infinity _ | .notANumber => false

/-- Whether a float is a number with a fractional part. -/
def hasFraction (x : Float) : Bool :=
  x.isFinite && !isIntegral x

end Binary64
end Calculator
