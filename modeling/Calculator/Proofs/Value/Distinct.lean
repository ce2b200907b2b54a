import Calculator.Proofs.Value.Finite
import Calculator.Proofs.Value.Text

/-!
# Texts tell values apart

The text of a float is read as this float, whether it has a point, an exponent or a name, and that
of an integer as this integer.  Every text of a float has a character that no integer has.
-/

namespace Calculator

open Binary64
open Float.Model.UnpackedFloat (Sign)

namespace Numeral

variable {x : Float} {mantissa : ℕ} {exponent : ℤ} {positive : 0 < mantissa}

theorem exists_ofText?_ofMagnitude
    (parts : unpack x = .finite .positive mantissa exponent positive) :
    ∃ decimal, Decimal.ofText? (ofMagnitude mantissa exponent x) = some decimal ∧
      decimal.toFloat = x := by
  by_cases outside : decide (x < 1e-4) || decide (1e16 ≤ x)
  · have canonical := isCanonical_of_unpack parts
    have rounds : RoundsTo (Decimal.shortest mantissa exponent).toRat mantissa exponent :=
      Decimal.roundsTo_search positive _
    have small := Decimal.natAbs_leadingExponent_lt (rounds.ge canonical positive)
      (rounds.lt canonical)
    rw [ofMagnitude, if_pos outside]
    exact ⟨_, Decimal.ofText?_scientific small, Decimal.toFloat_shortest parts⟩
  · obtain ⟨decimal, written, same⟩ := exists_written_ofMagnitude parts outside
    exact ⟨decimal, written.ofText?_eq, same⟩

/-- The text of a float is read as this float. -/
theorem toFloat?_ofFloat (x : Float) : toFloat? (ofFloat x) = some x := by
  rw [ofFloat]
  cases parts : unpack x with
  | notANumber =>
      rw [← pack_unpack x, parts]
      rfl
  | infinity sign | zero sign =>
      rw [← pack_unpack x, parts]
      cases sign <;> rfl
  | finite sign mantissa exponent positive =>
      obtain ⟨decimal, read, same⟩ := exists_ofText?_ofMagnitude (unpack_abs_of_finite parts)
      obtain ⟨unsigned, signed⟩ := toFloat?_of_ofText? read
      rw [same] at unsigned signed
      cases sign with
      | positive => exact unsigned.trans (congrArg some (abs_of_positive parts))
      | negative => exact signed.trans (congrArg some (neg_abs_of_negative parts))

theorem ofFloat_injective : Function.Injective ofFloat := by
  intro x y same
  have read := toFloat?_ofFloat x
  rw [same, toFloat?_ofFloat y] at read
  exact (Option.some.inj read).symm

/-- The characters of integers. -/
def isOfInteger (character : Char) : Bool :=
  character.isDigit || character = '-'

theorem isOfInteger_of_isDigit {character : Char} (digit : character.isDigit) :
    isOfInteger character := by
  rw [isOfInteger, digit]
  rfl

theorem isOfInteger_of_mem_ofInt {n : ℤ} : ∀ character ∈ ofInt n, isOfInteger character := by
  intro character member
  unfold ofInt at member
  split at member
  · rcases List.mem_cons.mp member with rfl | digit
    · rfl
    · exact isOfInteger_of_isDigit (isDigit_of_mem_ofNat character digit)
  · exact isOfInteger_of_isDigit (isDigit_of_mem_ofNat character member)

theorem mem_signed {character : Char} {text : List Char} (member : character ∈ text) (sign : Sign) :
    character ∈ signed sign text := by
  cases sign with
  | positive => exact member
  | negative => exact List.mem_cons_of_mem '-' member

theorem point_or_letter_mem_ofMagnitude
    (parts : unpack x = .finite .positive mantissa exponent positive) :
    '.' ∈ ofMagnitude mantissa exponent x ∨ 'e' ∈ ofMagnitude mantissa exponent x := by
  by_cases outside : decide (x < 1e-4) || decide (1e16 ≤ x)
  · right
    rw [ofMagnitude, if_pos outside, Decimal.scientific]
    split
    · rename_i none
      exact absurd none (ofNat_ne_nil _)
    · simp
  · left
    obtain ⟨decimal, written, -⟩ := exists_written_ofMagnitude parts outside
    exact written.point_mem

theorem exists_mem_ofFloat (x : Float) : ∃ character ∈ ofFloat x, ¬isOfInteger character := by
  rw [ofFloat]
  cases parts : unpack x with
  | notANumber => exact ⟨'n', List.mem_cons_self, by decide⟩
  | infinity sign => exact ⟨'i', mem_signed (by decide) sign, by decide⟩
  | zero sign => exact ⟨'.', mem_signed (by decide) sign, by decide⟩
  | finite sign mantissa exponent positive =>
      rcases point_or_letter_mem_ofMagnitude (unpack_abs_of_finite parts) with member | member
      · exact ⟨'.', mem_signed member sign, by decide⟩
      · exact ⟨'e', mem_signed member sign, by decide⟩

theorem ofFloat_ne_ofInt (x : Float) (n : ℤ) : ofFloat x ≠ ofInt n := by
  intro same
  obtain ⟨character, member, other⟩ := exists_mem_ofFloat x
  rw [same] at member
  exact other (isOfInteger_of_mem_ofInt character member)

end Numeral

namespace Value

/-- The same variant, with the same integer or the same bits of a float. -/
def IsIdentical : Value → Value → Prop
  | integer m, integer n => m = n
  | float x, float y => x.toBits = y.toBits
  | signalingNaN, signalingNaN => True
  | _, _ => False

theorem isIdentical_iff {left right : Value} : left.IsIdentical right ↔ left = right := by
  cases left <;> cases right
  case float.float x y => exact Float.toBits_inj.trans (float.injEq x y).to_iff.symm
  case integer.integer m n => exact (integer.injEq m n).to_iff.symm
  case signalingNaN.signalingNaN => exact iff_of_true trivial rfl
  all_goals exact iff_of_false id nofun

/-- Texts are those of one value only, apart from values that are not a number. -/
theorem eq_of_text_eq {left right : Value} (leftNumber : left.isNaN = false)
    (rightNumber : right.isNaN = false) (same : left.text = right.text) : left = right := by
  cases left with
  | signalingNaN => cases leftNumber
  | integer m =>
      cases right with
      | signalingNaN => cases rightNumber
      | float y => exact absurd same.symm (Numeral.ofFloat_ne_ofInt y m.toInt)
      | integer n =>
          rw [Int64.toInt_inj.mp (Numeral.ofInt_injective same)]
  | float x =>
      cases right with
      | signalingNaN => cases rightNumber
      | integer n => exact absurd same (Numeral.ofFloat_ne_ofInt x n.toInt)
      | float y =>
          rw [Numeral.ofFloat_injective same]

end Value

/-- Two values other than those that are not a number are printed alike only if they are the same
integer or the same float bit for bit.  No float at all is printed like an integer. -/
theorem texts_tell_values_apart :
    (∀ left right : Value, left.isNaN = false → right.isNaN = false →
      (left.render = right.render ↔ left.IsIdentical right)) ∧
    ∀ (x : Float) (n : Int64), (Value.float x).render ≠ (Value.integer n).render := by
  constructor
  · intro left right leftNumber rightNumber
    rw [Value.isIdentical_iff]
    constructor
    · intro same
      exact Value.eq_of_text_eq leftNumber rightNumber (String.ofList_injective same)
    · rintro rfl
      rfl
  · intro x n same
    exact Numeral.ofFloat_ne_ofInt x n.toInt (String.ofList_injective same)

/-- The two zeros are printed apart, and a large float with an exponent is printed unlike the
integer that it is. -/
theorem zeros_are_told_apart :
    (Value.float 0.0).isNaN = false ∧ (Value.float (-0.0)).isNaN = false ∧
      (Value.float 0.0).render ≠ (Value.float (-0.0)).render ∧
      (Value.float 1e16).render ≠ (Value.integer 10000000000000000).render := by
  have number : (Value.float 0.0).isNaN = false := rfl
  have negative : (Value.float (-0.0)).isNaN = false := rfl
  obtain ⟨distinct, notInteger⟩ := texts_tell_values_apart
  have other : (0.0 : Float).toBits ≠ (-0.0 : Float).toBits := by decide +kernel
  exact ⟨number, negative, (distinct _ _ number negative).not.mpr other, notInteger _ _⟩

end Calculator
