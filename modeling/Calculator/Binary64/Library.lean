/-!
# Mathematical library

Trigonometric functions, logarithms and powers of floats are not computed here.  A library provides
them, and what is computed with them is computed with any library.
-/

namespace Calculator
namespace Binary64

/-- The functions of a library. -/
structure Library where
  sin : Float → Float
  cos : Float → Float
  tan : Float → Float
  /-- Decimal logarithm. -/
  log10 : Float → Float
  /-- Natural logarithm. -/
  log : Float → Float
  /-- Power of a base and an exponent. -/
  pow : Float → Float → Float

/-- The library of the machine. -/
def Library.machine : Library where
  sin := Float.sin
  cos := Float.cos
  tan := Float.tan
  log10 := Float.log10
  log := Float.log
  pow := Float.pow

end Binary64
end Calculator
