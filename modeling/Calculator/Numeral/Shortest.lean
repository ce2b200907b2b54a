import Calculator.Numeral.Decimal

/-!
# Shortest decimals

The shortest decimal number that rounds to a given float.  The float `mantissa * 2 ^ exponent` is
the nearest one for all reals of an interval around it.  Grids of multiples of powers of ten are
tried from coarse to fine; the first with a point in the interval gives the decimal, and of two
points next to the float the nearer one is taken.  The grid on which the float itself lies ends the
search.
-/

namespace Calculator
namespace Decimal

/-- The interval of reals that round to a float, in quarters of its last place. -/
structure Interval where
  /-- Lower end. -/
  lower : Nat
  /-- The float itself. -/
  centre : Nat
  /-- Upper end. -/
  upper : Nat
  /-- Whether the ends round to the float as well. -/
  closed : Bool

/-- The interval of a float: half a place to each side, but only a quarter below where the places
below are half as wide.  The ends round to even mantissas. -/
def interval (mantissa : Nat) (exponent : Int) : Interval where
  lower := if mantissa = 1 <<< 52 ∧ -1074 < exponent then 4 * mantissa - 1 else 4 * mantissa - 2
  centre := 4 * mantissa
  upper := 4 * mantissa + 2
  closed := mantissa % 2 = 0

/-- Whether a number lies in an interval that is stretched by a factor. -/
def Interval.contains (interval : Interval) (factor number : Nat) : Bool :=
  if interval.closed then
    interval.lower * factor ≤ number && number ≤ interval.upper * factor
  else
    interval.lower * factor < number && number < interval.upper * factor

/-- The multiple of `10 ^ grid` next to a float that rounds to it; of two the nearer, and the
greater if they are equally near. -/
def onGrid? (mantissa : Nat) (exponent grid : Int) : Option Nat :=
  let reals := interval mantissa exponent
  let factor := Nat.pow 10 (-grid).toNat <<< (exponent - 2).toNat
  let unit := Nat.pow 10 grid.toNat <<< (2 - exponent).toNat
  let below := reals.centre * factor / unit
  match reals.contains factor (below * unit), reals.contains factor ((below + 1) * unit) with
  | true, true =>
    some (if 2 * (reals.centre * factor) < (2 * below + 1) * unit then below else below + 1)
  | true, false => some below
  | false, true => some (below + 1)
  | false, false => none

/-- The exponent of the finest grid needed, on which the float itself lies. -/
def finest (exponent : Int) : Int :=
  min exponent 0

/-- Tries the grids that are at most so many steps coarser than the finest one. -/
def search (mantissa : Nat) (exponent : Int) : Nat → Decimal
  | 0 => ⟨(mantissa * Nat.pow 5 (-exponent).toNat) <<< exponent.toNat, finest exponent⟩
  | steps + 1 =>
    match onGrid? mantissa exponent (finest exponent + (steps + 1 : Nat)) with
    | some significand => ⟨significand, finest exponent + (steps + 1 : Nat)⟩
    | none => search mantissa exponent steps

/-- The exponent of a power of ten above the interval of a float. -/
def coarsest (mantissa : Nat) (exponent : Int) : Int :=
  Int.fdiv ((mantissa.log2 + 1 + exponent) * 30103) 100000 + 2

/-- The shortest decimal number that rounds to `mantissa * 2 ^ exponent`. -/
def shortest (mantissa : Nat) (exponent : Int) : Decimal :=
  search mantissa exponent (coarsest mantissa exponent - finest exponent).toNat

end Decimal
end Calculator
