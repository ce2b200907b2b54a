import Calculator.Proofs.Expression.Operand
import Calculator.Proofs.Numeral.Reading

/-!
# Numerals of a source text

The literals for numbers that a source is cut into are those that evaluation can read, apart from
integers beyond 64 bits.  An integer denotes the number of its decimal digits, however many zeros
stand in front.
-/

namespace Calculator

theorem Lexeme.digits_of_integer {text rest : List Char}
    (lexeme : Lexeme (.literal .integer) text rest) :
    (∀ character ∈ text, character.isDigit) ∧ text ≠ [] := by
  cases lexeme with
  | integer run nonempty => exact ⟨run.all, nonempty⟩
  | sign written => cases written

theorem Lexeme.digits_of_float {text rest : List Char}
    (lexeme : Lexeme (.literal .float) text rest) :
    ∃ whole fraction, text = whole ++ '.' :: fraction ∧
      (∀ character ∈ whole, character.isDigit) ∧ (∀ character ∈ fraction, character.isDigit) ∧
      fraction ≠ [] := by
  cases lexeme with
  | float digits run nonempty => exact ⟨_, _, rfl, digits, run.all, nonempty⟩
  | sign written => cases written

section Members

variable {source : String} {token : Token}

theorem digits_of_mem_tokens (member : token ∈ tokens source)
    (kind : token.kind = .literal .integer) :
    (∀ character ∈ token.text.toList, character.isDigit) ∧ token.text.toList ≠ [] := by
  obtain ⟨rest, lexeme⟩ := exists_lexeme_of_mem_tokens member
  rw [kind] at lexeme
  exact lexeme.digits_of_integer

/-- An integer of a source is read as the number of its digits. -/
theorem integerLiteral_of_mem_tokens (member : token ∈ tokens source)
    (kind : token.kind = .literal .integer) :
    integerLiteral token.text =
      (Value.ofInt (Numeral.value token.text.toList)).mapError .fault := by
  obtain ⟨digits, nonempty⟩ := digits_of_mem_tokens member kind
  rw [integerLiteral, Numeral.toInt?_of_digits digits nonempty]

theorem floatLiteral_of_mem_tokens (member : token ∈ tokens source)
    (kind : token.kind = .literal .float) : ∃ x, floatLiteral token.text = .ok (.float x) := by
  obtain ⟨rest, lexeme⟩ := exists_lexeme_of_mem_tokens member
  rw [kind] at lexeme
  obtain ⟨whole, fraction, text, wholeDigits, fractionDigits, nonempty⟩ := lexeme.digits_of_float
  have decimal := Decimal.ofText?_of_digits wholeDigits fractionDigits nonempty
  rw [← text] at decimal
  rw [floatLiteral, (Numeral.toFloat?_of_ofText? decimal).1]
  exact ⟨_, rfl⟩

theorem integerLiteral_of_le (member : token ∈ tokens source)
    (kind : token.kind = .literal .integer)
    (small : Numeral.value token.text.toList ≤ 9223372036854775807) :
    ∃ n : Int64, n.toInt = Numeral.value token.text.toList ∧
      integerLiteral token.text = .ok (.integer n) := by
  have fits : Fits (Numeral.value token.text.toList) := by
    unfold Fits
    omega
  obtain ⟨n, same, read⟩ := Value.ofInt_of_fits fits
  refine ⟨n, same, ?_⟩
  rw [integerLiteral_of_mem_tokens member kind, read]
  rfl

theorem integerLiteral_of_lt (member : token ∈ tokens source)
    (kind : token.kind = .literal .integer)
    (large : 9223372036854775807 < Numeral.value token.text.toList) :
    integerLiteral token.text = .error (.fault .overflow) := by
  have tooLarge : ¬Fits (Numeral.value token.text.toList) := by
    unfold Fits
    omega
  rw [integerLiteral_of_mem_tokens member kind, Value.ofInt_of_not_fits tooLarge]
  rfl

end Members

/-- A calculation never misses an expression where a float stands.  Where it comes to an integer as
an operand, it goes on with the number that the digits denote, or fails with an overflow if 64 bits
do not hold this number; no other failure is located there. -/
theorem calculate_reads_numerals (source : String) :
    (∀ (index : Nat), ∀ token ∈ (tokens source)[index]?, token.kind = .literal .float →
      (∃ x, floatLiteral token.text = .ok (.float x)) ∧
        ∀ found, calculate source ≠ .error ⟨.unexpected .expression found, index⟩) ∧
    ∀ front token rest, tokens source = front ++ token :: rest →
      token.kind = .literal .integer →
      (∀ character ∈ token.text.toList, character.isDigit) ∧
      ∀ room goOn, ReadsOperandBehind front room goOn →
        ((∃ cause, calculate source = .error ⟨cause, front.length⟩) ↔
          9223372036854775807 < Numeral.value token.text.toList) ∧
        (9223372036854775807 < Numeral.value token.text.toList →
          calculate source = .error ⟨.fault .overflow, front.length⟩) ∧
        (Numeral.value token.text.toList ≤ 9223372036854775807 →
          ∃ n : Int64, n.toInt = Numeral.value token.text.toList ∧
            evaluate (tokens source) = goOn (.integer n, ⟨front.length + 1, rest⟩)) := by
  constructor
  · intro index token standing kind
    obtain ⟨x, read⟩ := floatLiteral_of_mem_tokens (List.mem_of_getElem? standing) kind
    refine ⟨⟨x, read⟩, fun found failed => ?_⟩
    have number : token.HasValue (.float x) := .inr ⟨kind, read⟩
    obtain ⟨mark, _, other⟩ :=
      number.exists_delimiter_of_evaluate standing (calculate_eq_error_iff.mp failed)
    cases other
  · intro front token rest split kind
    have member : token ∈ tokens source := by simp [split]
    refine ⟨(digits_of_mem_tokens member kind).1, fun room goOn reads => ?_⟩
    have overflows (large : 9223372036854775807 < Numeral.value token.text.toList) :
        calculate source = .error ⟨.fault .overflow, front.length⟩ := by
      rw [calculate_eq_error_iff, split]
      exact reads.evaluate_of_refused (.integer kind (integerLiteral_of_lt member kind large)) rest
    refine ⟨⟨?_, fun large => ⟨_, overflows large⟩⟩, overflows, ?_⟩
    · rintro ⟨cause, failed⟩
      by_contra small
      obtain ⟨n, _, read⟩ := integerLiteral_of_le member kind (Nat.le_of_not_lt small)
      have number : token.HasValue (.integer n) := .inl ⟨kind, read⟩
      rw [calculate_eq_error_iff, split] at failed
      exact number.evaluate_ne (exists_readsOperandBehind_iff.mp ⟨room, goOn, reads⟩) rest cause
        failed
    · intro small
      obtain ⟨n, same, read⟩ := integerLiteral_of_le member kind small
      refine ⟨n, same, ?_⟩
      rw [split]
      exact reads.evaluate_of_hasValue (.inl ⟨kind, read⟩) rest

/-- An operand is awaited behind `0+`, and zeros in front do not make a number fit. -/
theorem calculate_sum_with_overflow :
    (∃ room goOn, ReadsOperandBehind [.zero, ⟨.operator .plus, "+", ⟨1, 2⟩⟩] room goOn) ∧
    calculate "0+0009223372036854775808" = .error ⟨.fault .overflow, 2⟩ := by
  have left : (Tree.single .sum (.single .product (.ofOperand (.integer "0")))).Yields maxNesting 0
      [.zero] (.integer 0) := ⟨rfl, rfl⟩
  have right : Failure (.chain .product) maxNesting 2 [] none ⟨.endOfTokens, 2⟩ :=
    .first .product (.base (.operand .noToken))
  have sum : Failure (.chain .sum) maxNesting 0 ([.zero] ++ ⟨.operator .plus, "+", ⟨1, 2⟩⟩ :: [])
      _ _ := .right .sum left rfl rfl right
  have ended : evaluate [.zero, ⟨.operator .plus, "+", ⟨1, 2⟩⟩] = .error ⟨.endOfTokens, 2⟩ :=
    @Failure.evaluate_eq [.zero, ⟨.operator .plus, "+", ⟨1, 2⟩⟩] [] _ sum
  obtain ⟨room, goOn, reads⟩ := exists_readsOperandBehind_iff.mpr ended
  have split : tokens "0+0009223372036854775808" =
      [.zero, ⟨.operator .plus, "+", ⟨1, 2⟩⟩] ++
        ⟨.literal .integer, "0009223372036854775808", ⟨1, 3⟩⟩ :: [] := by
    decide +kernel
  have numerals := (calculate_reads_numerals _).2 _ _ _ split rfl
  exact ⟨⟨room, goOn, reads⟩, (numerals.2 room goOn reads).2.1 (by decide +kernel)⟩

end Calculator
