import Calculator.Numeral.Shortest
import Calculator.Value.Basic

/-!
# The text of a value

Integers are written as their digits.  Floats are written with a point or an exponent, in the
fewest digits that read back, so that no float looks like an integer.
-/

namespace Calculator

namespace Numeral

/-- The text of a positive float: with an exponent below `1e-4` and from `1e16` on, otherwise with
a point, after which an integer has one zero. -/
def ofMagnitude (mantissa : Nat) (exponent : Int) (size : Float) : List Char :=
  if size < 1e-4 || 1e16 ≤ size then
    (Decimal.shortest mantissa exponent).scientific
  else if Binary64.isIntegral size then
    ofNat (mantissa <<< exponent.toNat >>> (-exponent).toNat) ++ ".0".toList
  else
    (Decimal.shortest mantissa exponent).positional

/-- Puts a minus sign before a text if the sign is negative. -/
def signed (sign : Float.Model.UnpackedFloat.Sign) (text : List Char) : List Char :=
  match sign with
  | .positive => text
  | .negative => '-' :: text

/-- The text of a float. -/
def ofFloat (x : Float) : List Char :=
  match Binary64.unpack x with
  | .notANumber => "nan".toList
  | .infinity sign => signed sign "inf".toList
  | .zero sign => signed sign "0.0".toList
  | .finite sign mantissa exponent _ => signed sign (ofMagnitude mantissa exponent x.abs)

end Numeral

namespace Value

/-- The characters of a value. -/
def text : Value → List Char
  | integer n => Numeral.ofInt n.toInt
  | float x => Numeral.ofFloat x
  | signalingNaN => Numeral.ofFloat Binary64.nan

/-- The text of a value. -/
def render (value : Value) : String :=
  String.ofList value.text

end Value
end Calculator
