/-!
# Decimal integers

Integers as decimal text.  Writing uses no leading zero and no plus sign; reading accepts both.
-/

namespace Calculator
namespace Numeral

/-- The decimal digits of a natural number. -/
def ofNat (n : Nat) : List Char :=
  Nat.toDigits 10 n

/-- The digits of an integer, after a minus sign if it is negative. -/
def ofInt (n : Int) : List Char :=
  if n < 0 then '-' :: ofNat n.natAbs else ofNat n.natAbs

/-- The number that a run of digits denotes. -/
def value (digits : List Char) : Nat :=
  Nat.ofDigitChars 10 digits 0

/-- Reads one digit or more and nothing else. -/
def toNat? (text : List Char) : Option Nat :=
  if text ≠ [] ∧ text.all Char.isDigit then some (value text) else none

/-- Reads a natural number after an optional sign. -/
def toInt? : List Char → Option Int
  | '-' :: text => (toNat? text).map fun n => -(n : Int)
  | '+' :: text => (toNat? text).map fun n => (n : Int)
  | text => (toNat? text).map fun n => (n : Int)

theorem ofNat_ne_nil (n : Nat) : ofNat n ≠ [] :=
  Nat.toDigits_ne_nil

theorem all_isDigit_ofNat (n : Nat) : (ofNat n).all Char.isDigit = true :=
  List.all_eq_true.mpr fun _ digit => Nat.isDigit_of_mem_toDigits (by decide) (by decide) digit

@[simp]
theorem value_ofNat (n : Nat) : value (ofNat n) = n :=
  Nat.ofDigitChars_toDigits (by decide) (by decide)

@[simp]
theorem toNat?_ofNat (n : Nat) : toNat? (ofNat n) = some n := by
  simp [toNat?, ofNat_ne_nil, all_isDigit_ofNat]

theorem ofNat_injective {left right : Nat} (texts : ofNat left = ofNat right) : left = right := by
  rw [← value_ofNat left, texts, value_ofNat]

end Numeral
end Calculator
