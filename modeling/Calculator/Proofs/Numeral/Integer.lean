import Mathlib.Algebra.Group.Nat.Defs
import Calculator.Numeral.Integer

/-!
# Texts of integers

The text of an integer is read as this integer.  At the end of a longer text its digits are found
from the back, as long as another character stands in front of them.
-/

namespace Calculator
namespace Numeral

theorem isDigit_of_mem_ofNat {n : ℕ} : ∀ character ∈ ofNat n, character.isDigit :=
  List.all_eq_true.mp (all_isDigit_ofNat n)

theorem value_leftpad (places : ℕ) (digits : List Char) :
    value (digits.leftpad places '0') = value digits := by
  rw [value, List.leftpad, Nat.ofDigitChars_append, Nat.ofDigitChars_replicate_zero, Nat.mul_zero]
  rfl

theorem isDigit_of_mem_leftpad {n places : ℕ} :
    ∀ character ∈ (ofNat n).leftpad places '0', character.isDigit := by
  intro character member
  rcases List.mem_append.mp member with zero | digit
  · rw [List.eq_of_mem_replicate zero]
    rfl
  · exact isDigit_of_mem_ofNat character digit

theorem length_ofNat_le_iff {n places : ℕ} (positive : 0 < places) :
    (ofNat n).length ≤ places ↔ n < 10 ^ places :=
  Nat.length_toDigits_le_iff (by decide) positive

/-- Digits behind another character are the longest run of digits at the end. -/
theorem prefix_of_append_digits {front back digits others : List Char} {mark : Char}
    (all : ∀ character ∈ digits, character.isDigit) (noDigit : ¬mark.isDigit)
    (same : front ++ digits = back ++ mark :: others) : back ++ [mark] <+: front := by
  have outside : mark ∉ digits := fun member => noDigit (all mark member)
  rcases List.append_eq_append_iff.mp same with ⟨rest, -, inside⟩ | ⟨rest, split, inside⟩
  · exact absurd (by simp [inside]) outside
  · cases rest with
    | nil =>
        rw [List.nil_append] at inside
        exact absurd (by simp [← inside]) outside
    | cons first rest =>
        obtain ⟨rfl, -⟩ := List.cons.inj inside
        exact ⟨rest, by simp [split]⟩

/-- A number at the end of a text and what stands in front of it are found again, if this does not
end in a digit. -/
theorem append_ofNat_inj {front back : List Char} {mark other : Char} {m n : ℕ}
    (noDigit : ¬mark.isDigit) (otherNoDigit : ¬other.isDigit)
    (same : front ++ mark :: ofNat m = back ++ other :: ofNat n) :
    front ++ [mark] = back ++ [other] ∧ m = n := by
  have whole : (front ++ [mark]) ++ ofNat m = (back ++ [other]) ++ ofNat n := by simpa using same
  have left : back ++ [other] <+: front ++ [mark] :=
    prefix_of_append_digits isDigit_of_mem_ofNat otherNoDigit (by simpa using same)
  have right : front ++ [mark] <+: back ++ [other] :=
    prefix_of_append_digits isDigit_of_mem_ofNat noDigit (by simpa using same.symm)
  have fronts : front ++ [mark] = back ++ [other] := right.eq_of_length_le left.length_le
  rw [fronts] at whole
  exact ⟨fronts, ofNat_injective (List.append_cancel_left whole)⟩

theorem append_words_ofNat_inj {text other words : List Char} {mark : Char} {m n : ℕ}
    (ends : words.getLast? = some mark) (noDigit : ¬mark.isDigit)
    (same : text ++ words ++ ofNat m = other ++ words ++ ofNat n) : text = other ∧ m = n := by
  obtain ⟨front, rfl⟩ := List.getLast?_eq_some_iff.mp ends
  have split (text : List Char) (n : ℕ) :
      text ++ (front ++ [mark]) ++ ofNat n = (text ++ front) ++ mark :: ofNat n := by simp
  rw [split, split] at same
  obtain ⟨fronts, numbers⟩ := append_ofNat_inj noDigit noDigit same
  exact ⟨List.append_cancel_right (List.append_cancel_right fronts), numbers⟩

end Numeral
end Calculator
