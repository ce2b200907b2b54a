import Calculator.Expression.Cursor
import Calculator.Value.Arithmetic

/-!
# Chains of operators

Operands with operators of one level between them.  Sums and products are evaluated as they are
read, from left to right.  Powers group from the right, so that all operands of a chain are read
before the last of them is the first exponent.
-/

namespace Calculator

/-- Applies the operators of a level that follow a left operand, from left to right. -/
def Reader.extend (operand : Reader Value) (level : Level) (left : Value) (cursor : Cursor) :
    Except EvalError (Value × Cursor) :=
  match _sign : cursor.operator? level with
  | none => .ok (left, cursor)
  | some (operator, afterSign) =>
    match _right : operand.run afterSign with
    | .error error => .error error
    | .ok (value, after) =>
      match operator.apply left value with
      | .error reason => .error ⟨.fault reason, cursor.index⟩
      | .ok result => operand.extend level result after
termination_by cursor.rest.length
decreasing_by
  have signLength := Cursor.length_of_operator? _sign
  have rightLength := operand.shortens _right
  omega

/-- Raises the first operand of a chain of powers to an exponent, after the operands between them,
which come last first.  Each of those has the index of the sign on its left, and so the index for
the exponent is that of the sign on the left of the exponent. -/
def raiseOnto (first exponent : Value) (index : Nat) :
    List (Nat × Value) → Except EvalError Value
  | [] =>
    match first.pow exponent with
    | .error reason => .error ⟨.fault reason, index⟩
    | .ok power => .ok power
  | (baseIndex, base) :: earlier =>
    match base.pow exponent with
    | .error reason => .error ⟨.fault reason, index⟩
    | .ok power => raiseOnto first power baseIndex earlier

/-- Raises the first operand of a chain of powers to the others, which come last first. -/
def raiseAll (first : Value) : List (Nat × Value) → Except EvalError Value
  | [] => .ok first
  | (index, last) :: earlier => raiseOnto first last index earlier

/-- Reads the operands of the powers that follow an operand, and puts each of them, with the index
of the sign on its left, in front of those already read. -/
def Reader.exponents (operand : Reader Value) (earlier : List (Nat × Value)) (cursor : Cursor) :
    Except EvalError (List (Nat × Value) × Cursor) :=
  match _sign : cursor.operator? .power with
  | none => .ok (earlier, cursor)
  | some (_, afterSign) =>
    match _right : operand.run afterSign with
    | .error error => .error error
    | .ok (value, after) => operand.exponents ((cursor.index, value) :: earlier) after
termination_by cursor.rest.length
decreasing_by
  have signLength := Cursor.length_of_operator? _sign
  have rightLength := operand.shortens _right
  omega

theorem Reader.extend_of_none (operand : Reader Value) {level : Level} (left : Value)
    {cursor : Cursor} (ended : cursor.operator? level = none) :
    operand.extend level left cursor = .ok (left, cursor) := by
  rw [Reader.extend]
  split
  · rfl
  · rename_i sign
    rw [ended] at sign
    cases sign

/-- An operator is applied once its right operand is read, and the chain goes on with the result. -/
theorem Reader.extend_of_some (operand : Reader Value) {level : Level} (left : Value)
    {cursor afterSign : Cursor} {operator : Operator}
    (found : cursor.operator? level = some (operator, afterSign)) :
    operand.extend level left cursor = (do
      let (right, after) ← operand.run afterSign
      let result ← (operator.apply left right).mapError (⟨.fault ·, cursor.index⟩)
      operand.extend level result after) := by
  rw [Reader.extend]
  split
  · rename_i ended
    rw [found] at ended
    cases ended
  · rename_i sign
    obtain ⟨rfl, rfl⟩ := Prod.mk.inj (Option.some.inj (found.symm.trans sign))
    split
    · rename_i reading
      rw [reading]
      rfl
    · rename_i reading
      rw [reading]
      dsimp only [bind, Except.bind]
      split <;> rename_i applied <;> rw [applied] <;> rfl

theorem Reader.exponents_of_none (operand : Reader Value) (earlier : List (Nat × Value))
    {cursor : Cursor} (ended : cursor.operator? .power = none) :
    operand.exponents earlier cursor = .ok (earlier, cursor) := by
  rw [Reader.exponents]
  split
  · rfl
  · rename_i sign
    rw [ended] at sign
    cases sign

theorem Reader.exponents_of_some (operand : Reader Value) (earlier : List (Nat × Value))
    {cursor afterSign : Cursor} {operator : Operator}
    (found : cursor.operator? .power = some (operator, afterSign)) :
    operand.exponents earlier cursor = (do
      let (next, after) ← operand.run afterSign
      operand.exponents ((cursor.index, next) :: earlier) after) := by
  rw [Reader.exponents]
  split
  · rename_i ended
    rw [found] at ended
    cases ended
  · rename_i sign
    obtain ⟨rfl, rfl⟩ := Prod.mk.inj (Option.some.inj (found.symm.trans sign))
    split <;> rename_i reading <;> rw [reading] <;> rfl

theorem Reader.length_of_extend {operand : Reader Value} {level : Level} {left value : Value}
    {before after : Cursor} (result : operand.extend level left before = .ok (value, after)) :
    after.rest.length ≤ before.rest.length := by
  fun_induction Reader.extend operand level left before with
  | case1 => cases result; exact Nat.le_refl _
  | case2 => cases result
  | case3 => cases result
  | case4 left before operator afterSign sign right middle reading result applied induction =>
      have signLength := Cursor.length_of_operator? sign
      have rightLength := operand.shortens reading
      have extended := induction ‹_›
      omega

theorem Reader.length_of_exponents {operand : Reader Value} {earlier others : List (Nat × Value)}
    {before after : Cursor} (result : operand.exponents earlier before = .ok (others, after)) :
    after.rest.length ≤ before.rest.length := by
  fun_induction Reader.exponents operand earlier before with
  | case1 => cases result; exact Nat.le_refl _
  | case2 => cases result
  | case3 earlier before _ afterSign sign right middle reading induction =>
      have signLength := Cursor.length_of_operator? sign
      have rightLength := operand.shortens reading
      have othersLength := induction result
      omega

/-- A chain of operands at the level of sums or products. -/
def Reader.chain (operand : Reader Value) (level : Level) : Reader Value where
  run cursor := do
    let (left, after) ← operand.run cursor
    operand.extend level left after
  shortens {before after value} result := by
    cases first : operand.run before with
    | error => rw [first] at result; cases result
    | ok read =>
        rw [first] at result
        have firstLength := operand.shortens first
        have chainLength : after.rest.length ≤ read.2.rest.length := Reader.length_of_extend result
        omega

/-- A chain of operands at the level of powers. -/
def Reader.powers (operand : Reader Value) : Reader Value where
  run cursor := do
    let (first, afterFirst) ← operand.run cursor
    let (others, after) ← operand.exponents [] afterFirst
    let power ← raiseAll first others
    return (power, after)
  shortens {before after value} result := by
    obtain ⟨first, firstRead, afterFirst⟩ := bind_eq_ok_iff.mp result
    obtain ⟨others, othersRead, afterOthers⟩ := bind_eq_ok_iff.mp afterFirst
    obtain ⟨_, _, returned⟩ := bind_eq_ok_iff.mp afterOthers
    cases returned
    have firstLength := operand.shortens firstRead
    have othersLength : others.2.rest.length ≤ first.2.rest.length :=
      Reader.length_of_exponents othersRead
    omega

end Calculator
