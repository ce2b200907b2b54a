import Calculator.Binary64.Basic
import Calculator.Numeral.Integer

/-!
# Decimal numbers

A decimal number is an integer times a power of ten.  It is read from digits with an optional point
and exponent, and written either with a point or with an exponent.
-/

namespace Calculator

/-- The number `significand * 10 ^ exponent`. -/
structure Decimal where
  /-- All digits, as one number. -/
  significand : Nat
  /-- How many places the digits are moved to the left. -/
  exponent : Int
  deriving DecidableEq, Repr

namespace Decimal

/-- The float nearest to a decimal number; a tie goes to the even mantissa. -/
def toFloat (decimal : Decimal) : Float :=
  .ofModel (.ofScientific decimal.significand decimal.exponent)

/-- Splits digits with an optional point into the digits before and after it and the other text. -/
def splitDigits (text : List Char) : List Char × List Char × List Char :=
  match text.dropWhile Char.isDigit with
  | '.' :: rest =>
    (text.takeWhile Char.isDigit, rest.takeWhile Char.isDigit, rest.dropWhile Char.isDigit)
  | rest => (text.takeWhile Char.isDigit, [], rest)

/-- The size of an exponent.  Digits are no longer taken in once it is past 16 bits, which is far
beyond the range of floats. -/
def exponentSize (digits : List Char) : Nat :=
  digits.foldl
    (fun size digit => if size < 0x10000 then 10 * size + (digit.toNat - '0'.toNat) else size) 0

/-- Reads the size of an exponent, one digit or more. -/
def exponentSize? (text : List Char) : Option Nat :=
  if text ≠ [] ∧ text.all Char.isDigit then some (exponentSize text) else none

/-- Reads an exponent: nothing at all, or the letter E, an optional sign and digits. -/
def exponent? : List Char → Option Int
  | [] => some 0
  | letter :: text =>
    if letter = 'e' ∨ letter = 'E' then
      match text with
      | '-' :: text => (exponentSize? text).map fun size => -(size : Int)
      | '+' :: text => (exponentSize? text).map fun size => (size : Int)
      | text => (exponentSize? text).map fun size => (size : Int)
    else none

/-- Reads at least one digit with an optional point, and an exponent. -/
def ofText? (text : List Char) : Option Decimal :=
  let (whole, fraction, rest) := splitDigits text
  if whole ++ fraction = [] then none
  else (exponent? rest).map fun exponent =>
    ⟨Numeral.value (whole ++ fraction), exponent - fraction.length⟩

/-- The digits with a point before as many of them as the negative exponent says, and zeros in
front so that a digit stands before the point. -/
def positional (decimal : Decimal) : List Char :=
  let places := (-decimal.exponent).toNat
  let digits := (Numeral.ofNat decimal.significand).leftpad (places + 1) '0'
  digits.take (digits.length - places) ++ '.' :: digits.drop (digits.length - places)

/-- The first digit, a point before the others if there are any, and the exponent of the first. -/
def scientific (decimal : Decimal) : List Char :=
  match Numeral.ofNat decimal.significand with
  | [] => []
  | first :: others =>
    first :: (if others = [] then [] else '.' :: others) ++
      'e' :: Numeral.ofInt (decimal.exponent + others.length)

end Decimal

namespace Numeral

/-- Reads an unsigned float: a decimal number, or the name of an infinity or of a float that is
not a number, in any case. -/
def magnitude? (text : List Char) : Option Float :=
  match (Decimal.ofText? text).map Decimal.toFloat with
  | some x => some x
  | none =>
    let name := String.ofList (text.map Char.toLower)
    if name = "inf" ∨ name = "infinity" then some (Binary64.pack (.infinity .positive))
    else if name = "nan" then some Binary64.nan
    else none

/-- Reads a float after an optional sign. -/
def toFloat? : List Char → Option Float
  | '-' :: text => (magnitude? text).map fun x => -x
  | '+' :: text => magnitude? text
  | text => magnitude? text

end Numeral
end Calculator
