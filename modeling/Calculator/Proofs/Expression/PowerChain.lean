import Calculator.Proofs.Expression.Reading

/-!
# Chains of powers

The rule for powers calls itself: a power is an operand, and if a sign follows it is raised to the
power behind the sign.  Reading all operands first and raising them from the last one on comes to
the same, however long the chain is and wherever reading or raising it fails.
-/

namespace Calculator

/-- Reads a power by its rule: an operand and, if a sign follows, the power behind the sign as its
exponent.  A power without a result fails at this sign. -/
def Reader.powerByRule (operand : Reader Value) (cursor : Cursor) :
    Except EvalError (Value × Cursor) :=
  match _base : operand.run cursor with
  | .error error => .error error
  | .ok (base, after) =>
    match _sign : after.operator? .power with
    | none => .ok (base, after)
    | some (_, afterSign) =>
      match operand.powerByRule afterSign with
      | .error error => .error error
      | .ok (exponent, last) =>
        match base.pow exponent with
        | .error reason => .error ⟨.fault reason, after.index⟩
        | .ok power => .ok (power, last)
termination_by cursor.rest.length
decreasing_by
  have baseLength := operand.shortens _base
  have signLength := Cursor.length_of_operator? _sign
  omega

namespace Reader

variable {operand : Reader Value} {cursor after : Cursor} {base : Value}

theorem powerByRule_of_error {error : EvalError} (failed : operand.run cursor = .error error) :
    operand.powerByRule cursor = .error error := by
  rw [powerByRule]
  split
  · rename_i reading
    exact reading.symm.trans failed
  · rename_i reading
    cases failed.symm.trans reading

theorem powerByRule_of_none (read : operand.run cursor = .ok (base, after))
    (ended : after.operator? .power = none) :
    operand.powerByRule cursor = .ok (base, after) := by
  rw [powerByRule]
  split
  · rename_i reading
    cases read.symm.trans reading
  · rename_i reading
    obtain ⟨rfl, rfl⟩ := Prod.mk.inj (Except.ok.inj (read.symm.trans reading))
    split
    · rfl
    · rename_i sign
      cases ended.symm.trans sign

theorem powerByRule_of_some {sign : Operator} {afterSign : Cursor}
    (read : operand.run cursor = .ok (base, after))
    (found : after.operator? .power = some (sign, afterSign)) :
    operand.powerByRule cursor = (do
      let (exponent, last) ← operand.powerByRule afterSign
      let power ← (base.pow exponent).mapError (⟨.fault ·, after.index⟩)
      return (power, last)) := by
  rw [powerByRule]
  split
  · rename_i reading
    cases read.symm.trans reading
  · rename_i reading
    obtain ⟨rfl, rfl⟩ := Prod.mk.inj (Except.ok.inj (read.symm.trans reading))
    split
    · rename_i ended
      cases found.symm.trans ended
    · rename_i next
      obtain ⟨rfl, rfl⟩ := Prod.mk.inj (Option.some.inj (found.symm.trans next))
      split
      · rename_i exponent
        rw [exponent]
        rfl
      · rename_i exponent
        rw [exponent]
        dsimp only [bind, Except.bind]
        split <;> rename_i power <;> rw [power] <;> rfl

end Reader

/-- A chain of powers is read as its rule says, for any reader of operands. -/
theorem Reader.run_powers_eq (operand : Reader Value) (cursor : Cursor) :
    operand.powers.run cursor = operand.powerByRule cursor := by
  generalize size : cursor.rest.length = length
  induction length using Nat.strongRecOn generalizing cursor with
  | ind length induction =>
      rw [run_powers]
      cases read : operand.run cursor with
      | error error => exact (powerByRule_of_error read).symm
      | ok base =>
          obtain ⟨base, after⟩ := base
          dsimp only [bind, Except.bind]
          cases found : after.operator? .power with
          | none => exact (powerByRule_of_none read found).symm
          | some sign =>
              obtain ⟨sign, afterSign⟩ := sign
              have baseLength := operand.shortens read
              have signLength := Cursor.length_of_operator? found
              have shorter : afterSign.rest.length < length := by omega
              rw [powerByRule_of_some read found]
              dsimp only
              rw [induction _ shorter afterSign rfl]
              rfl

/-- The loops for powers and the rule that calls itself read the same value up to the same place, or
fail with the same cause at the same token: for all tokens, from every place among them and for
every reader of the arguments of calls, and so at every depth of nesting. -/
theorem power_run_eq_powerByRule (argument : Option (Reader Value)) (tokens : List Token)
    (position : Nat) :
    (Reader.power argument).run ⟨position, tokens.drop position⟩ =
      (Reader.operand argument).powerByRule ⟨position, tokens.drop position⟩ :=
  Reader.run_powers_eq (Reader.operand argument) ⟨position, tokens.drop position⟩

end Calculator
