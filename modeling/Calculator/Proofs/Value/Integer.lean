import Calculator.Proofs.Value.Int64

/-!
# Integer values

Operations on integer values have the result of exact arithmetic if 64 bits hold it.  For a
remainder they always do.
-/

namespace Calculator

namespace Value

theorem ofInt_of_fits {n : Int} (fits : Fits n) :
    ∃ m : Int64, m.toInt = n ∧ ofInt n = .ok (integer m) := by
  obtain ⟨m, size, found⟩ := int64?_of_fits fits
  exact ⟨m, size, congrArg ofInt64? found⟩

theorem ofInt_of_not_fits {n : Int} (large : ¬Fits n) : ofInt n = .error .overflow :=
  congrArg ofInt64? (int64?_of_not_fits large)

theorem not_fits_of_ofInt {n : Int} {reason : Fault} (failed : ofInt n = .error reason) :
    ¬Fits n ∧ reason = .overflow := by
  by_cases fits : Fits n
  · obtain ⟨_, _, found⟩ := ofInt_of_fits fits
    rw [found] at failed
    cases failed
  · rw [ofInt_of_not_fits fits] at failed
    exact ⟨fits, (Except.error.inj failed).symm⟩

theorem isZero_integer_iff {n : Int64} : (integer n).isZero ↔ n.toInt = 0 := by
  rw [isZero, decide_eq_true_iff]
  exact Int64.toInt_inj.symm

theorem mod_integer (m : Int64) {n : Int64} (nonzero : n.toInt ≠ 0) :
    mod (integer m) (integer n) = ofInt (m.toInt.fmod n.toInt) := by
  rw [mod, if_neg (mt isZero_integer_iff.mp nonzero), ← toInt_flooredRemainder, ofInt_toInt]

theorem mod_of_zero (left : Value) {n : Int64} (zero : n.toInt = 0) :
    mod left (integer n) = .error .moduloByZero :=
  if_pos (isZero_integer_iff.mpr zero)

variable {power : Float → Float → Float}

theorem powWith_integer (m : Int64) {n : Int64} (natural : 0 ≤ n.toInt) :
    powWith power (integer m) (integer n) = ofInt (m.toInt ^ n.toInt.toNat) := by
  rw [powWith, if_pos natural, power?_eq, ofInt]

/-- A value is the integer of the given size. -/
def Denotes (value : Value) (n : Int) : Prop :=
  ∃ m : Int64, m.toInt = n ∧ value = integer m

theorem Denotes.unique {value : Value} {m n : Int} (denotes : value.Denotes m)
    (other : value.Denotes n) : m = n := by
  obtain ⟨_, rfl, rfl⟩ := denotes
  obtain ⟨_, rfl, same⟩ := other
  rw [integer.inj same]

theorem not_denotes_float (x : Float) (n : Int) : ¬(float x).Denotes n := by
  rintro ⟨_, _, same⟩
  cases same

theorem exists_float_of_div {left right value : Value} (result : div left right = .ok value) :
    ∃ x, value = float x := by
  unfold div at result
  split at result
  · cases result
  · exact ⟨_, (Except.ok.inj result).symm⟩

theorem exists_float_of_floatPow {base exponent : Float} {value : Value}
    (result : floatPow power base exponent = .ok value) : ∃ x, value = float x := by
  unfold floatPow at result
  split at result
  · cases result
  split at result
  · cases result
  dsimp only at result
  split at result
  · cases result
  · exact ⟨_, (Except.ok.inj result).symm⟩

end Value

/-- An operation of exact arithmetic with its operands. -/
inductive Operation
  | literal (n : Int)
  | absolute (n : Int)
  | sum (m n : Int)
  | difference (m n : Int)
  | product (m n : Int)
  | remainder (m n : Int)
  | power (m n : Int)

namespace Operation

/-- The result without bounds.  Remainders are those of quotients rounded down. -/
def result : Operation → Int
  | literal n => n
  | absolute n => n.natAbs
  | sum m n => m + n
  | difference m n => m - n
  | product m n => m * n
  | remainder m n => m.fmod n
  | power m n => m ^ n.toNat

/-- Why 64 bits hold no result. -/
def fault? : Operation → Option Fault
  | remainder _ 0 => some .moduloByZero
  | operation => if Fits operation.result then none else some .overflow

/-- An exponent is not negative. -/
def HasNaturalExponent : Operation → Prop
  | power _ n => 0 ≤ n
  | literal _ | absolute _ | sum _ _ | difference _ _ | product _ _ | remainder _ _ => True

/-- An outcome in 64 bits is the exact result or the fault that it has there. -/
def Agrees (operation : Operation) (outcome : Except Fault Value) : Prop :=
  match operation.fault? with
  | some reason => outcome = .error reason
  | none => ∃ value : Value, outcome = .ok value ∧ value.Denotes operation.result

theorem fault?_remainder {m n : Int} (nonzero : n ≠ 0) :
    (remainder m n).fault? = if Fits (m.fmod n) then none else some .overflow := by
  unfold fault?
  split
  · rename_i zero
    cases zero
    exact absurd rfl nonzero
  · rfl

theorem agrees_ofInt {operation : Operation}
    (checked : operation.fault? = if Fits operation.result then none else some .overflow) :
    operation.Agrees (Value.ofInt operation.result) := by
  rw [Agrees, checked]
  by_cases fits : Fits operation.result
  · obtain ⟨m, size, found⟩ := Value.ofInt_of_fits fits
    rw [if_pos fits]
    exact ⟨.integer m, found, m, size, rfl⟩
  · rw [if_neg fits]
    exact Value.ofInt_of_not_fits fits

end Operation

/-- What an operator does with integers.  Quotients are not exact. -/
def Operator.operation? : Operator → Int → Int → Option Operation
  | .plus, m, n => some (.sum m n)
  | .minus, m, n => some (.difference m n)
  | .multiply, m, n => some (.product m n)
  | .divide, _, _ => none
  | .modulo, m, n => some (.remainder m n)
  | .power, m, n => some (.power m n)

/-- What a function does with integers.  Only absolute values and powers are exact. -/
def Builtin.operation? : (function : Builtin) → Vector Int function.arity → Option Operation
  | .abs, arguments => some (.absolute (arguments.get ⟨0, Nat.one_pos⟩))
  | .pow, arguments =>
    some (.power (arguments.get ⟨0, Nat.two_pos⟩) (arguments.get ⟨1, Nat.one_lt_two⟩))
  | .sin, _ | .cos, _ | .tan, _ | .sqrt, _ | .log, _ | .ln, _ => none

/-- Operators on integers are exact, or have the fault of the exact operation. -/
theorem Operator.agrees {sign : Operator} {left right : Value} {m n : Int} {operation : Operation}
    (left_denotes : left.Denotes m) (right_denotes : right.Denotes n)
    (found : sign.operation? m n = some operation) (natural : operation.HasNaturalExponent) :
    operation.Agrees (sign.apply left right) := by
  obtain ⟨m, rfl, rfl⟩ := left_denotes
  obtain ⟨n, rfl, rfl⟩ := right_denotes
  cases sign <;> cases found
  case plus | minus | multiply => exact Operation.agrees_ofInt rfl
  case modulo =>
    by_cases zero : n.toInt = 0
    · rw [Operator.apply, Value.mod_of_zero _ zero, zero]
      rfl
    · rw [Operator.apply, Value.mod_integer _ zero]
      exact @Operation.agrees_ofInt (.remainder m.toInt n.toInt) (Operation.fault?_remainder zero)
  case power =>
    rw [Operator.apply, Value.pow, Value.powWith_integer _ natural]
    exact @Operation.agrees_ofInt (.power m.toInt n.toInt) rfl

theorem Value.abs_agrees {value : Value} {n : Int} (denotes : value.Denotes n) :
    (Operation.absolute n).Agrees value.abs := by
  obtain ⟨n, rfl, rfl⟩ := denotes
  exact Operation.agrees_ofInt rfl

theorem Builtin.agrees {function : Builtin} {arguments : Vector Value function.arity}
    {exacts : Vector Int function.arity} {operation : Operation}
    (denotes : ∀ (i : Nat) (inside : i < function.arity), arguments[i].Denotes exacts[i])
    (found : function.operation? exacts = some operation)
    (natural : operation.HasNaturalExponent) : operation.Agrees (function.call arguments) := by
  cases function with
  | sin | cos | tan | sqrt | log | ln => cases found
  | abs =>
      cases found
      exact Value.abs_agrees (denotes 0 Nat.one_pos)
  | pow =>
      cases found
      exact @Operator.agrees .power _ _ _ _ _ (denotes 0 Nat.two_pos) (denotes 1 Nat.one_lt_two)
        rfl natural

theorem Value.integers_or_float_of_mod {left right value : Value}
    (result : mod left right = .ok value) :
    (∃ m n, left = integer m ∧ right = integer n) ∨ ∃ x, value = float x := by
  unfold mod at result
  split at result
  · cases result
  split at result
  · exact .inl ⟨_, _, rfl, rfl⟩
  · exact .inr ⟨_, (Except.ok.inj result).symm⟩

theorem Operator.integers_or_float {sign : Operator} {left right value : Value}
    (result : sign.apply left right = .ok value) :
    (∃ m n, left = .integer m ∧ right = .integer n) ∨ ∃ x, value = .float x := by
  have ofFloat {x : Float} (found : Except.ok (.float x) = (.ok value : Except Fault Value)) :
      ∃ x, value = .float x := ⟨x, (Except.ok.inj found).symm⟩
  cases sign with
  | divide => exact .inr (Value.exists_float_of_div result)
  | modulo => exact Value.integers_or_float_of_mod result
  | plus | minus | multiply =>
      rcases left with m | _ | _ <;> rcases right with n | _ | _
      case integer.integer => exact .inl ⟨m, n, rfl, rfl⟩
      all_goals exact .inr (ofFloat result)
  | power =>
      rcases left with m | _ | _ <;> rcases right with n | _ | _
      case integer.integer => exact .inl ⟨m, n, rfl, rfl⟩
      all_goals
        first
        | exact .inr (ofFloat result)
        | exact .inr (Value.exists_float_of_floatPow result)

theorem Value.exists_float_of_pow {m n : Int64} {value : Value}
    (result : pow (integer m) (integer n) = .ok value) (negative : ¬0 ≤ n.toInt) :
    ∃ x, value = float x := by
  rw [pow, powWith, if_neg negative] at result
  exact exists_float_of_floatPow result

/-- An operator has an integer result only for integers, and it is that of an exact operation. -/
theorem Operator.exists_operation {sign : Operator} {left right value : Value} {k : Int}
    (result : sign.apply left right = .ok value) (denotes : value.Denotes k) :
    ∃ m n operation, left.Denotes m ∧ right.Denotes n ∧ sign.operation? m n = some operation ∧
      operation.HasNaturalExponent := by
  have whole : ¬∃ x, value = .float x := by
    rintro ⟨x, rfl⟩
    exact Value.not_denotes_float x k denotes
  rcases Operator.integers_or_float result with ⟨m, n, rfl, rfl⟩ | isFloat
  · refine ⟨m.toInt, n.toInt, ?_⟩
    suffices found : ∃ operation, sign.operation? m.toInt n.toInt = some operation ∧
        operation.HasNaturalExponent by
      obtain ⟨operation, found, natural⟩ := found
      exact ⟨operation, ⟨m, rfl, rfl⟩, ⟨n, rfl, rfl⟩, found, natural⟩
    cases sign with
    | plus | minus | multiply | modulo => exact ⟨_, rfl, trivial⟩
    | divide => exact absurd (Value.exists_float_of_div result) whole
    | power =>
        -- A negative exponent turns both operands into floats.
        by_cases natural : 0 ≤ n.toInt
        · exact ⟨_, rfl, natural⟩
        · exact absurd (Value.exists_float_of_pow result natural) whole
  · exact absurd isFloat whole

theorem Value.denotes_of_abs {value result : Value} {k : Int} (found : value.abs = .ok result)
    (denotes : result.Denotes k) : ∃ n, value.Denotes n := by
  cases value with
  | integer n => exact ⟨n.toInt, n, rfl, rfl⟩
  | float x =>
      cases found
      exact absurd denotes (Value.not_denotes_float _ k)
  | signalingNaN =>
      cases found
      obtain ⟨_, _, same⟩ := denotes
      cases same

theorem Builtin.not_denotes_of_onDomain {function : Builtin} {domain : Float → Bool}
    {apply : Float → Float} {argument value : Value} {k : Int}
    (result : onDomain function domain apply argument = .ok value) : ¬value.Denotes k := by
  unfold onDomain at result
  split at result
  · cases result
    exact Value.not_denotes_float _ k
  · cases result

theorem Builtin.exists_operation {function : Builtin} {arguments : Vector Value function.arity}
    {value : Value} {k : Int} (result : function.call arguments = .ok value)
    (denotes : value.Denotes k) :
    ∃ (exacts : Vector Int function.arity) (operation : Operation),
      (∀ (i : Nat) (inside : i < function.arity), arguments[i].Denotes exacts[i]) ∧
      function.operation? exacts = some operation ∧ operation.HasNaturalExponent := by
  cases function with
  | sin | cos | tan | sqrt | log | ln =>
      rw [call, callWith] at result
      exact absurd denotes (not_denotes_of_onDomain result)
  | abs =>
      obtain ⟨n, argument⟩ := Value.denotes_of_abs result denotes
      refine ⟨#v[n], _, fun i inside => ?_, rfl, trivial⟩
      obtain rfl : i = 0 := Nat.lt_one_iff.mp inside
      exact argument
  | pow =>
      obtain ⟨m, n, operation, base, exponent, found, natural⟩ :=
        @Operator.exists_operation .power _ _ _ _ result denotes
      refine ⟨#v[m, n], operation, fun i inside => ?_, found, natural⟩
      have first_or_second : i = 0 ∨ i = 1 := by
        have bound : i < 2 := inside
        omega
      rcases first_or_second with rfl | rfl
      · exact base
      · exact exponent

end Calculator
