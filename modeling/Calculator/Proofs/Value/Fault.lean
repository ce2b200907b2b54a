import Calculator.Expression.Evaluate
import Calculator.Proofs.Value.Integer

/-!
# Faults of operations

Every operator and every function has a list of faults, and no other comes from applying it.  In
particular a remainder never overflows, and only powers have faults of more than one kind.  For a
literal that cannot be read there is one cause.
-/

namespace Calculator

/-- The faults that an operator can have. -/
def Operator.faults : Operator → List Fault
  | plus | minus | multiply => [.overflow]
  | divide => [.divisionByZero]
  | modulo => [.moduloByZero]
  | power => [.divisionByZero, .overflow, .domain .pow]

/-- The faults that a function can have. -/
def Builtin.faults : Builtin → List Fault
  | abs => [.overflow]
  | pow => Operator.power.faults
  | function => [.domain function]

namespace Value

variable {left right : Value} {reason : Fault}

theorem overflow_of_ofInt {n : Int} (failed : ofInt n = .error reason) : reason ∈ [.overflow] :=
  List.mem_singleton.mpr (not_fits_of_ofInt failed).2

theorem divisionByZero_of_div (failed : div left right = .error reason) :
    reason ∈ [.divisionByZero] := by
  unfold div at failed
  split at failed
  · exact List.mem_singleton.mpr (Except.error.inj failed).symm
  · cases failed

theorem moduloByZero_of_mod (failed : mod left right = .error reason) :
    reason ∈ [.moduloByZero] := by
  unfold mod at failed
  split at failed
  · exact List.mem_singleton.mpr (Except.error.inj failed).symm
  split at failed
  · cases failed
  · cases failed

theorem overflow_of_abs {value : Value} (failed : value.abs = .error reason) :
    reason ∈ [.overflow] := by
  cases value with
  | integer n => exact overflow_of_ofInt failed
  | float | signalingNaN => cases failed

variable {power : Float → Float → Float}

theorem mem_faults_of_floatPow {base exponent : Float}
    (failed : floatPow power base exponent = .error reason) : reason ∈ Operator.power.faults := by
  unfold floatPow at failed
  split at failed
  · obtain rfl := Except.error.inj failed
    decide
  split at failed
  · obtain rfl := Except.error.inj failed
    decide
  dsimp only at failed
  split at failed
  · obtain rfl := Except.error.inj failed
    decide
  · cases failed

theorem mem_faults_of_powWith (failed : powWith power left right = .error reason) :
    reason ∈ Operator.power.faults := by
  unfold powWith at failed
  split at failed
  · split at failed
    · rw [power?_eq] at failed
      rw [List.mem_singleton.mp (overflow_of_ofInt failed)]
      decide
    · exact mem_faults_of_floatPow failed
  · cases failed
  · cases failed
  · exact mem_faults_of_floatPow failed

end Value

/-- An operator has no faults but its own. -/
theorem Operator.mem_faults {sign : Operator} {left right : Value} {reason : Fault}
    (failed : sign.apply left right = .error reason) : reason ∈ sign.faults := by
  cases sign with
  | plus | minus | multiply =>
      rcases left with m | _ | _ <;> rcases right with n | _ | _
      case integer.integer => exact Value.overflow_of_ofInt failed
      all_goals cases failed
  | divide => exact Value.divisionByZero_of_div failed
  | modulo => exact Value.moduloByZero_of_mod failed
  | power => exact Value.mem_faults_of_powWith failed

theorem Builtin.domain_of_onDomain {function : Builtin} {domain : Float → Bool}
    {apply : Float → Float} {argument : Value} {reason : Fault}
    (failed : onDomain function domain apply argument = .error reason) :
    reason ∈ [.domain function] := by
  unfold onDomain at failed
  split at failed
  · cases failed
  · exact List.mem_singleton.mpr (Except.error.inj failed).symm

/-- A function has no faults but its own. -/
theorem Builtin.mem_faults {function : Builtin} {arguments : Vector Value function.arity}
    {reason : Fault} (failed : function.call arguments = .error reason) :
    reason ∈ function.faults := by
  cases function with
  | sin | cos | tan | sqrt | log | ln =>
      rw [call, callWith] at failed
      exact domain_of_onDomain failed
  | abs => exact Value.overflow_of_abs failed
  | pow => exact Value.mem_faults_of_powWith failed

theorem eq_overflow_of_integerLiteral {text : String} {cause : Cause}
    (unread : integerLiteral text = .error cause) : cause = .fault .overflow := by
  unfold integerLiteral at unread
  split at unread
  · obtain ⟨reason, failed, rfl⟩ := mapError_eq_error_iff.mp unread
    rw [(Value.not_fits_of_ofInt failed).2]
  · exact (Except.error.inj unread).symm

theorem eq_unexpected_of_floatLiteral {text : String} {cause : Cause}
    (unread : floatLiteral text = .error cause) :
    cause = .unexpected .expression (some text) := by
  unfold floatLiteral at unread
  split at unread
  · cases unread
  · exact (Except.error.inj unread).symm

end Calculator
