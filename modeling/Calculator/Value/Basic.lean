import Calculator.Binary64.Basic
import Calculator.Builtin

/-!
# Values

A value is an integer of 64 bits for as long as its computation stays exact, and a float once it
does not.  An operation without a result has a fault instead.  Of the bit patterns that are not a
number some signal; they are kept apart because powers treat them differently.
-/

namespace Calculator

/-- Why an operation has no result. -/
inductive Fault
  | divisionByZero
  | moduloByZero
  /-- An integer outside 64 bits, or an infinite power of finite numbers. -/
  | overflow
  /-- An argument outside the domain of a function. -/
  | domain (function : Builtin)
  deriving DecidableEq, Repr

/-- The numbers of expressions. -/
inductive Value
  | integer (n : Int64)
  | float (x : Float)
  /-- A float that is not a number and signals it.  No operation on numbers results in one. -/
  | signalingNaN

/-- The integer in 64 bits, if they hold it. -/
def int64? (n : Int) : Option Int64 :=
  if Int64.minValue.toInt ≤ n ∧ n ≤ Int64.maxValue.toInt then some (.ofInt n) else none

namespace Value

/-- The float with the given bits.  What is not a number signals if the first bit of its mantissa
is not set. -/
def ofBits (bits : UInt64) : Value :=
  if (Float.ofBits bits).isNaN && bits &&& 0x0008000000000000 = 0 then signalingNaN
  else float (Float.ofBits bits)

/-- An integer result that 64 bits hold, or else an overflow. -/
def ofInt64? : Option Int64 → Except Fault Value
  | some n => .ok (integer n)
  | none => .error .overflow

/-- An exact integer result; it is lost if 64 bits do not hold it. -/
def ofInt (n : Int) : Except Fault Value :=
  ofInt64? (int64? n)

/-- Whether a value is an integer by form, not only by size. -/
def isInteger : Value → Bool
  | integer _ => true
  | float _ | signalingNaN => false

/-- The nearest float; integers beyond `2 ^ 53` are rounded, and nothing signals any more. -/
def toFloat : Value → Float
  | integer n => Binary64.ofInt n.toInt
  | float x => x
  | signalingNaN => Binary64.nan

/-- Zeros are zeros in either form and with either sign. -/
def isZero : Value → Bool
  | integer n => n = 0
  | float x => x == 0
  | signalingNaN => false

theorem ofInt_toInt (n : Int64) : ofInt n.toInt = .ok (integer n) := by
  have range : Int64.minValue.toInt ≤ n.toInt ∧ n.toInt ≤ Int64.maxValue.toInt :=
    ⟨Int64.minValue_le_toInt n, Int64.toInt_le n⟩
  rw [ofInt, int64?, if_pos range, Int64.ofInt_toInt, ofInt64?]

theorem ofInt_eq_ok_iff {n : Int} {value : Value} :
    ofInt n = .ok value ↔ ∃ m : Int64, m.toInt = n ∧ value = integer m := by
  constructor
  · intro result
    unfold ofInt int64? at result
    split at result
    · rename_i range
      have size := Int64.toInt_ofInt_of_le range.1 (Int.lt_add_one_of_le range.2)
      exact ⟨.ofInt n, size, (Except.ok.inj result).symm⟩
    · cases result
  · rintro ⟨m, rfl, rfl⟩
    exact ofInt_toInt m

end Value
end Calculator
