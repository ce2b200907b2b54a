import Calculator.Calculation
import Calculator.Value.Text
import Calculator.Proofs.Expression.PowerCall
import Calculator.Proofs.Numeral.Reading
import Calculator.Proofs.Numeral.Shortest

/-!
# Texts of values

The text of a value without a sign and without an exponent is one literal, and it is read as the
value that it was written for.  Integers are written as their digits, and floats with a point among
their digits, so that neither is taken for the other.
-/

namespace Calculator

open Binary64

/-- A text is digits with a point in front of the last ones, which stand for a decimal number. -/
inductive Decimal.Written : Decimal → List Char → Prop
  | point {whole fraction : List Char} (wholeDigits : ∀ character ∈ whole, character.isDigit)
    (fractionDigits : ∀ character ∈ fraction, character.isDigit) (nonempty : fraction ≠ []) :
    Written ⟨Numeral.value (whole ++ fraction), 0 - fraction.length⟩ (whole ++ '.' :: fraction)

namespace Decimal

variable {decimal : Decimal} {text : List Char}

theorem Written.lexeme (written : Written decimal text) : Lexeme (.literal .float) text [] := by
  cases written with
  | point wholeDigits fractionDigits nonempty =>
      exact .float wholeDigits ⟨fractionDigits, nofun⟩ nonempty

theorem Written.ofText?_eq (written : Written decimal text) : ofText? text = some decimal := by
  cases written with
  | point wholeDigits fractionDigits nonempty =>
      exact ofText?_of_digits wholeDigits fractionDigits nonempty

theorem Written.point_mem (written : Written decimal text) : '.' ∈ text := by
  cases written
  simp

theorem written_split {digits : List Char} (all : ∀ character ∈ digits, character.isDigit)
    {front : ℕ} (inside : front < digits.length) :
    Written ⟨Numeral.value digits, front - digits.length⟩
      (digits.take front ++ '.' :: digits.drop front) := by
  have whole : ∀ character ∈ digits.take front, character.isDigit :=
    fun character member => all character (List.mem_of_mem_take member)
  have fraction : ∀ character ∈ digits.drop front, character.isDigit :=
    fun character member => all character (List.mem_of_mem_drop member)
  have nonempty : digits.drop front ≠ [] := List.drop_eq_nil_iff.not.mpr (Nat.not_le.mpr inside)
  have places : (0 : ℤ) - (digits.drop front).length = front - digits.length := by
    rw [List.length_drop]
    omega
  have written := Written.point whole fraction nonempty
  rwa [List.take_append_drop, places] at written

theorem written_positional (fraction : decimal.exponent < 0) :
    Written decimal decimal.positional := by
  obtain ⟨significand, exponent⟩ := decimal
  dsimp only at fraction
  rw [positional]
  dsimp only
  generalize size : (-exponent).toNat = places
  have digits := @Numeral.isDigit_of_mem_leftpad significand (places + 1)
  have read := Numeral.value_leftpad (places + 1) (Numeral.ofNat significand)
  have enough : places + 1 ≤ ((Numeral.ofNat significand).leftpad (places + 1) '0').length := by
    rw [List.length_leftpad]
    exact le_max_left _ _
  rw [Numeral.value_ofNat] at read
  generalize (Numeral.ofNat significand).leftpad (places + 1) '0' = padded at *
  have written := @written_split padded digits (padded.length - places) (by omega)
  have moved : ((padded.length - places : ℕ) : ℤ) - padded.length = exponent := by omega
  rwa [read, moved] at written

theorem written_whole (n : ℕ) : Written ⟨10 * n, -1⟩ (Numeral.ofNat n ++ ".0".toList) := by
  have zero : ∀ character ∈ ['0'], character.isDigit := List.forall_mem_singleton.mpr rfl
  have value : Numeral.value (Numeral.ofNat n ++ ['0']) = 10 * n := by
    have front := Numeral.value_ofNat n
    rw [Numeral.value] at front
    rw [Numeral.value, Nat.ofDigitChars_append, front, Nat.ofDigitChars_cons, Nat.ofDigitChars_nil,
      Nat.sub_self, Nat.add_zero]
  have written := Written.point (@Numeral.isDigit_of_mem_ofNat n) zero (List.cons_ne_nil _ _)
  rw [value] at written
  exact written

end Decimal

namespace Numeral

variable {x : Float}

/-- Out of the range of exponents the text of a positive float is a decimal number with a point,
which is read as this float. -/
theorem exists_written_ofMagnitude {mantissa : ℕ} {exponent : ℤ} {positive : 0 < mantissa}
    (parts : unpack x = .finite .positive mantissa exponent positive)
    (inRange : ¬(decide (x < 1e-4) || decide (1e16 ≤ x))) :
    ∃ decimal : Decimal, decimal.Written (ofMagnitude mantissa exponent x) ∧
      decimal.toFloat = x := by
  rw [ofMagnitude, if_neg inRange]
  split
  · rename_i integral
    have size := Decimal.shifted_whole_eq ((isIntegral_iff parts).mp integral)
    refine ⟨_, Decimal.written_whole _, Decimal.toFloat_eq_of_roundsTo parts ?_⟩
    generalize mantissa <<< exponent.toNat >>> (-exponent).toNat = whole at size
    have rat : Decimal.toRat ⟨10 * whole, -1⟩ = mantissa * 2 ^ exponent := by
      rw [← size, Decimal.toRat]
      push_cast
      ring
    rw [rat]
    exact roundsTo_self mantissa exponent
  · rename_i fraction
    have places := Decimal.exponent_shortest_neg positive ((isIntegral_iff parts).not.mp fraction)
    exact ⟨_, Decimal.written_positional places, Decimal.toFloat_shortest parts⟩

/-- A float in the range of texts without an exponent is written as a decimal number that is read as
this float. -/
theorem exists_written_ofFloat (lower : 1e-4 ≤ x) (upper : x < 1e16) :
    ∃ decimal : Decimal, decimal.Written (ofFloat x) ∧ decimal.toFloat = x := by
  have least : (0 : Float) < 1e-4 := by decide +kernel
  obtain ⟨mantissa, exponent, positive, parts⟩ :=
    exists_unpack_of_zero_lt_of_lt (zero_lt_of_lt_of_le least lower) upper
  have inRange : ¬(decide (x < 1e-4) || decide (1e16 ≤ x)) := by
    rw [Bool.or_eq_true, decide_eq_true_iff, decide_eq_true_iff, not_or]
    exact ⟨not_lt_of_le lower, fun above => not_lt_of_le above upper⟩
  have text : ofFloat x = ofMagnitude mantissa exponent x := by
    rw [ofFloat, parts, abs_of_positive parts]
    rfl
  rw [text]
  exact exists_written_ofMagnitude parts inRange

end Numeral

namespace Value

/-- The values whose texts have neither a sign nor an exponent. -/
inductive IsPlain : Value → Prop
  | integer {n : Int64} (nonneg : 0 ≤ n) : IsPlain (integer n)
  | zero : IsPlain (float 0)
  | float {x : Float} (lower : 1e-4 ≤ x) (upper : x < 1e16) : IsPlain (float x)

/-- The text of a value as a literal of its own kind. -/
def literal (value : Value) : Token :=
  ⟨.literal (if value.isInteger then .integer else .float), value.render, .start⟩

/-- The text of a value is one literal, which stands for this value. -/
structure ReadsBack (value : Value) : Prop where
  lexeme : Lexeme value.literal.kind value.text []
  evaluate : evaluate [value.literal] = .ok value

variable {value : Value}

theorem ReadsBack.tokens_eq (back : value.ReadsBack) : tokens value.render = [value.literal] := by
  have segments := (Segment.Fits.lexeme back.lexeme).segments_eq
  rw [List.append_nil, Segment.segments_nil] at segments
  change Segment.segments value.text = _ at segments
  rw [tokens, render, String.toList_ofList, segments]
  rfl

theorem readsBack_integer {n : Int64} (nonneg : 0 ≤ n) : ReadsBack (integer n) := by
  have unsigned : 0 ≤ n.toInt := Int64.le_iff_toInt_le.mp nonneg
  have digits : text (integer n) = Numeral.ofNat n.toInt.natAbs := if_neg (by omega)
  have run : Run Char.isDigit (text (integer n)) [] := by
    rw [digits]
    refine ⟨Numeral.isDigit_of_mem_ofNat, fun character next => ?_⟩
    cases next
  have nonempty : text (integer n) ≠ [] := by
    rw [digits]
    exact Numeral.ofNat_ne_nil _
  have denoted : Numeral.toInt? (text (integer n)) = some n.toInt := by
    rw [Numeral.toInt?_of_digits run.all nonempty, digits, Numeral.value_ofNat,
      Int.natAbs_of_nonneg unsigned]
  have read : integerLiteral (integer n).render = .ok (integer n) := by
    rw [integerLiteral, render, String.toList_ofList, denoted]
    exact congrArg (Except.mapError _) (ofInt_toInt n)
  have whole : ¬BeginsFraction [] := by
    rintro ⟨_, _, split, _⟩
    cases split
  refine ⟨.integer run nonempty whole, ?_⟩
  rw [@evaluate_of_spelled (.ofSingle (.integer (integer n).render)) [literal (integer n)] rfl]
  exact congrArg (Except.mapError _) read

theorem readsBack_float {x : Float} {decimal : Decimal}
    (written : decimal.Written (Numeral.ofFloat x)) (same : decimal.toFloat = x) :
    ReadsBack (float x) := by
  have read : floatLiteral (float x).render = .ok (float x) := by
    rw [floatLiteral, render, String.toList_ofList, text,
      (Numeral.toFloat?_of_ofText? written.ofText?_eq).1, same]
  refine ⟨written.lexeme, ?_⟩
  rw [@evaluate_of_spelled (.ofSingle (.float (float x).render)) [literal (float x)] rfl]
  exact congrArg (Except.mapError _) read

theorem IsPlain.readsBack (plain : value.IsPlain) : value.ReadsBack := by
  cases plain with
  | integer nonneg => exact readsBack_integer nonneg
  | zero => exact readsBack_float (Decimal.written_whole 0) rfl
  | float lower upper =>
      obtain ⟨decimal, written, same⟩ := Numeral.exists_written_ofFloat lower upper
      exact readsBack_float written same

end Value

/-- An integer that is not negative, and a float that is zero or in the range of texts without an
exponent, is printed as one token of its own kind.  The text is calculated to the value that was
printed, which for a float is the same one bit for bit. -/
theorem printed_value_reads_back {value : Value} (plain : value.IsPlain) :
    tokenize value.render = [value.literal, .endMarker (endPosition value.render)] ∧
      calculate value.render = .ok ⟨[value.literal], value⟩ := by
  have back := plain.readsBack
  refine ⟨?_, ?_⟩
  · rw [tokenize, back.tokens_eq]
    rfl
  · rw [calculate_eq, back.tokens_eq, back.evaluate]
    rfl

/-- The least float in range has its first digit four places behind the point. -/
theorem printed_tenThousandth_reads_back :
    (Value.float 1e-4).IsPlain ∧ (Value.float 1e-4).render = "0.0001" ∧
      calculate "0.0001" = .ok ⟨[⟨.literal .float, "0.0001", .start⟩], .float 1e-4⟩ := by
  have plain : (Value.float 1e-4).IsPlain := .float (by decide +kernel) (by decide +kernel)
  have text : (Value.float 1e-4).render = "0.0001" := by decide +kernel
  have back := (printed_value_reads_back plain).2
  rw [Value.literal, text] at back
  exact ⟨plain, text, back⟩

end Calculator
