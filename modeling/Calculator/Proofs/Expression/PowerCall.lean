import Calculator.Proofs.Expression.Blame

/-!
# Powers as calls

A tree means the same wherever its tokens stand, and with however much room for its calls, as long
as there is enough; only the indexes of errors move along with the tokens.  So the function for
powers and the sign for powers agree on any two operands, which stand two tokens further on behind
the name and its parenthesis.
-/

namespace Calculator

/-- The same error at a token further on. -/
def EvalError.moved (distance : Nat) (error : EvalError) : EvalError :=
  ⟨error.cause, error.position + distance⟩

theorem EvalError.moved_moved (first second : Nat) (error : EvalError) :
    (error.moved first).moved second = error.moved (first + second) :=
  congrArg (EvalError.mk error.cause) (Nat.add_assoc ..)

theorem mapError_bind {ε ε' α β : Type} (first : Except ε α) (second : α → Except ε β)
    (relabel : ε → ε') :
    (first >>= second).mapError relabel =
      first.mapError relabel >>= fun value => (second value).mapError relabel := by
  cases first <;> rfl

theorem mapError_mapError {ε ε' ε'' α : Type} (result : Except ε α) (first : ε → ε')
    (second : ε' → ε'') :
    (result.mapError first).mapError second =
      result.mapError fun error => second (first error) := by
  cases result <;> rfl

namespace Tree

/-- A tree of tokens further on, with enough room for its calls, means the same. -/
theorem eval_add {phrase : Phrase} (tree : Tree phrase) {room other : Nat}
    (enough : tree.depth ≤ room) (enoughThere : tree.depth ≤ other) (index distance : Nat) :
    tree.eval other (index + distance) = (tree.eval room index).mapError (.moved distance) := by
  induction tree generalizing room other index with
  | integer text | float text =>
      rw [eval, eval, mapError_mapError]
      rfl
  | call function arguments induction =>
      obtain ⟨room, rfl⟩ := Nat.exists_eq_add_of_le' (Nat.one_le_of_lt enough)
      obtain ⟨other, rfl⟩ := Nat.exists_eq_add_of_le' (Nat.one_le_of_lt enoughThere)
      have inside := induction (Nat.le_of_succ_le_succ enough)
        (Nat.le_of_succ_le_succ enoughThere) (index + 2)
      simp only [eval, mapError_bind, mapError_mapError]
      rw [Nat.add_right_comm, inside]
      rfl
  | ofOperand operand induction => exact induction enough enoughThere index
  | raise base exponent base_induction exponent_induction =>
      obtain ⟨base_enough, exponent_enough⟩ := Nat.max_le.mp enough
      obtain ⟨base_there, exponent_there⟩ := Nat.max_le.mp enoughThere
      simp only [eval, mapError_bind, mapError_mapError]
      rw [base_induction base_enough base_there, Nat.add_right_comm index,
        Nat.add_right_comm _ distance 1, exponent_induction exponent_enough exponent_there]
      rfl
  | single joins operand induction => exact induction enough enoughThere index
  | join joins left sign bound right left_induction right_induction =>
      obtain ⟨left_enough, right_enough⟩ := Nat.max_le.mp enough
      obtain ⟨left_there, right_there⟩ := Nat.max_le.mp enoughThere
      simp only [eval, mapError_bind, mapError_mapError]
      rw [left_induction left_enough left_there, Nat.add_right_comm index,
        Nat.add_right_comm _ distance 1, right_induction right_enough right_there]
      rfl
  | one argument induction =>
      simp only [eval, mapError_bind]
      rw [induction enough enoughThere]
      rfl
  | more earlier last earlier_induction last_induction =>
      obtain ⟨earlier_enough, last_enough⟩ := Nat.max_le.mp enough
      obtain ⟨earlier_there, last_there⟩ := Nat.max_le.mp enoughThere
      simp only [eval, mapError_bind]
      rw [earlier_induction earlier_enough earlier_there, Nat.add_right_comm index,
        Nat.add_right_comm _ distance 1, last_induction last_enough last_there]
      rfl

/-- An operand as an expression. -/
def ofSingle (operand : Tree .operand) : Tree (.chain .sum) :=
  .single .sum (.single .product (.ofOperand operand))

/-- Two operands with the sign for powers between them. -/
def ofSign (base exponent : Tree .operand) : Tree (.chain .sum) :=
  .single .sum (.single .product (.raise base (.ofOperand exponent)))

/-- Two operands as arguments of the function for powers. -/
def ofCall (base exponent : Tree .operand) : Tree (.chain .sum) :=
  ofSingle (.call .pow (.more (.one (ofSingle base)) (ofSingle exponent)))

theorem eval_ofCall (base exponent : Tree .operand) (room index : Nat) :
    (ofCall base exponent).eval (room + 1) index = (do
      let x ← base.eval room (index + 2)
      let y ← exponent.eval room (index + 2 + base.symbols.length + 1)
      (x.pow y).mapError (⟨.fault ·, index⟩)) := by
  simp only [ofCall, ofSingle, eval, symbols]
  cases base.eval room (index + 2) with
  | error => rfl
  | ok x => cases exponent.eval room (index + 2 + base.symbols.length + 1) <;> rfl

end Tree

theorem evaluate_of_spelled {tree : Tree (.chain .sum)} {tokens : List Token}
    (spelled : tokens.map Token.symbol = tree.symbols) :
    evaluate tokens = tree.eval maxNesting 0 := by
  have begins : tree.Begins tokens [] := ⟨tokens, (List.append_nil _).symm, spelled, nofun⟩
  exact begins.evaluate_eq

/-- The values of two operands with one token between them, or the first error in them. -/
def evaluateBoth (left right : List Token) : Except EvalError (Value × Value) := do
  let first ← evaluate left
  let second ← (evaluate right).mapError (.moved (left.length + 1))
  return (first, second)

section Operands

variable {base exponent : Tree .operand} {left right : List Token}
  (left_spelled : left.map Token.symbol = base.symbols)
  (right_spelled : right.map Token.symbol = exponent.symbols)

include left_spelled right_spelled

theorem evaluate_sign (exponent_fits : exponent.depth ≤ maxNesting) {sign : Token}
    (raises : sign.kind = .operator .power) :
    evaluate (left ++ sign :: right) = (do
      let (x, y) ← evaluateBoth left right
      (x.pow y).mapError (⟨.fault ·, left.length⟩)) := by
  have spelled : (left ++ sign :: right).map Token.symbol = (Tree.ofSign base exponent).symbols :=
    Tree.symbols_raise left_spelled raises right_spelled
  have length : base.symbols.length = left.length := by rw [← left_spelled, List.length_map]
  have moved := exponent.eval_add exponent_fits exponent_fits 0 (left.length + 1)
  rw [evaluateBoth, evaluate_of_spelled spelled,
    @evaluate_of_spelled (.ofSingle base) left left_spelled,
    @evaluate_of_spelled (.ofSingle exponent) right right_spelled]
  simp only [Tree.ofSign, Tree.ofSingle, Tree.eval, length]
  rw [Nat.zero_add] at moved ⊢
  rw [moved]
  cases base.eval maxNesting 0 with
  | error => rfl
  | ok x => cases exponent.eval maxNesting 0 <;> rfl

theorem evaluate_call (base_fits : base.depth < maxNesting)
    (exponent_fits : exponent.depth < maxNesting) {name opening comma closing : Token}
    (called : name.Names .pow) (opens : opening.kind = Delimiter.kind .leftParen)
    (separates : comma.kind = Delimiter.kind .comma)
    (closes : closing.kind = Delimiter.kind .rightParen) :
    evaluate (name :: opening :: (left ++ comma :: right ++ [closing])) = (do
      let (x, y) ← (evaluateBoth left right).mapError (.moved 2)
      (x.pow y).mapError (⟨.fault ·, 0⟩)) := by
  have arguments : (left ++ comma :: right).map Token.symbol =
      (Tree.more (.one (.ofSingle base)) (.ofSingle exponent)).symbols :=
    Tree.symbols_more left_spelled separates right_spelled
  have spelled : (name :: opening :: (left ++ comma :: right ++ [closing])).map Token.symbol =
      (Tree.ofCall base exponent).symbols :=
    Tree.symbols_call (Token.symbol_eq_literal_iff.mpr called) opens arguments closes
  have length : base.symbols.length = left.length := by rw [← left_spelled, List.length_map]
  have base_moved : base.eval (maxNesting - 1) 2 = (base.eval maxNesting 0).mapError (.moved 2) :=
    base.eval_add base_fits.le (Nat.le_sub_one_of_lt base_fits) 0 2
  have exponent_moved :=
    exponent.eval_add exponent_fits.le (Nat.le_sub_one_of_lt exponent_fits) 0 (2 + left.length + 1)
  have evaluated := Tree.eval_ofCall base exponent (maxNesting - 1) 0
  rw [Nat.zero_add] at evaluated exponent_moved
  rw [length, base_moved, exponent_moved] at evaluated
  rw [evaluate_of_spelled spelled, evaluateBoth,
    @evaluate_of_spelled (.ofSingle base) left left_spelled,
    @evaluate_of_spelled (.ofSingle exponent) right right_spelled]
  refine evaluated.trans ?_
  simp only [Tree.ofSingle, Tree.eval]
  cases base.eval maxNesting 0 with
  | error => rfl
  | ok x =>
      cases exponent.eval maxNesting 0 with
      | error error =>
          refine congrArg Except.error ?_
          rw [EvalError.moved_moved]
          congr 1
          omega
      | ok y => rfl

omit right_spelled in
/-- An error in two operands does not stand at the token between them. -/
theorem position_ne_of_evaluateBoth {error : EvalError}
    (failed : evaluateBoth left right = .error error) : error.position ≠ left.length := by
  rcases bind_eq_error_iff.mp failed with first | ⟨_, _, later⟩
  · rw [@evaluate_of_spelled (.ofSingle base) left left_spelled] at first
    obtain ⟨before, token, after, rfl, position, _⟩ :=
      @Tree.stemsFrom_of_eval _ (.ofSingle base) _ _ _ _ left_spelled first
    rw [position, List.length_append, List.length_cons]
    omega
  rcases bind_eq_error_iff.mp later with second | ⟨_, _, returned⟩
  · obtain ⟨inner, _, rfl⟩ := mapError_eq_error_iff.mp second
    change inner.position + (left.length + 1) ≠ left.length
    omega
  · cases returned

end Operands

/-- The function for powers and the sign for powers have the same value for two operands, or fail
for the same cause: inside of the operands two tokens further on behind the name, and otherwise at
the name and at the sign. -/
theorem evaluate_pow_call_agrees {base exponent : Tree .operand} {left right : List Token}
    (left_spelled : left.map Token.symbol = base.symbols)
    (right_spelled : right.map Token.symbol = exponent.symbols)
    (base_fits : base.depth < maxNesting) (exponent_fits : exponent.depth < maxNesting)
    {name opening comma closing sign : Token} (called : name.Names .pow)
    (opens : opening.kind = Delimiter.kind .leftParen)
    (separates : comma.kind = Delimiter.kind .comma)
    (closes : closing.kind = Delimiter.kind .rightParen)
    (raises : sign.kind = .operator .power) :
    (evaluate (left ++ sign :: right) = do
        let (x, y) ← evaluateBoth left right
        (x.pow y).mapError (⟨.fault ·, left.length⟩)) ∧
    (evaluate (name :: opening :: (left ++ comma :: right ++ [closing])) = do
        let (x, y) ← (evaluateBoth left right).mapError (.moved 2)
        (x.pow y).mapError (⟨.fault ·, 0⟩)) ∧
    evaluate (name :: opening :: (left ++ comma :: right ++ [closing])) =
      (evaluate (left ++ sign :: right)).mapError fun error =>
        ⟨error.cause, if error.position = left.length then 0 else error.position + 2⟩ := by
  have atSign := evaluate_sign left_spelled right_spelled exponent_fits.le raises
  have atName := evaluate_call left_spelled right_spelled base_fits exponent_fits called opens
    separates closes
  refine ⟨atSign, atName, ?_⟩
  rw [atSign, atName]
  cases both : evaluateBoth left right with
  | error error =>
      have apart := position_ne_of_evaluateBoth left_spelled both
      dsimp only [bind, Except.bind, Except.mapError]
      rw [if_neg apart]
      rfl
  | ok values =>
      dsimp only [bind, Except.bind, Except.mapError]
      cases values.1.pow values.2 with
      | error reason =>
          dsimp only
          rw [if_pos rfl]
      | ok value => rfl

/-- The power `abs(2) ^ 9223372036854775807` fails at its sign, and with the function for powers at
the name. -/
theorem evaluate_overflowing_powers :
    [⟨.literal .identifier, "abs", .start⟩, Delimiter.leftParen.token,
        ⟨.literal .integer, "2", .start⟩, Delimiter.rightParen.token].map Token.symbol =
      (Tree.call .abs (.one (.ofSingle (.integer "2")))).symbols ∧
    (Tree.call .abs (.one (.ofSingle (.integer "2")))).depth < maxNesting ∧
    evaluate [⟨.literal .identifier, "abs", .start⟩, Delimiter.leftParen.token,
        ⟨.literal .integer, "2", .start⟩, Delimiter.rightParen.token,
        ⟨.operator .power, "^", .start⟩, ⟨.literal .integer, "9223372036854775807", .start⟩] =
      .error ⟨.fault .overflow, 4⟩ ∧
    evaluate [⟨.literal .identifier, "pow", .start⟩, Delimiter.leftParen.token,
        ⟨.literal .identifier, "abs", .start⟩, Delimiter.leftParen.token,
        ⟨.literal .integer, "2", .start⟩, Delimiter.rightParen.token, Delimiter.comma.token,
        ⟨.literal .integer, "9223372036854775807", .start⟩, Delimiter.rightParen.token] =
      .error ⟨.fault .overflow, 0⟩ := by
  have base_fits : (Tree.call .abs (.one (.ofSingle (.integer "2")))).depth < maxNesting := by
    decide
  have exponent_fits : (Tree.integer "9223372036854775807").depth < maxNesting := by decide
  have failed : evaluate [⟨.literal .identifier, "abs", .start⟩, Delimiter.leftParen.token,
        ⟨.literal .integer, "2", .start⟩, Delimiter.rightParen.token,
        ⟨.operator .power, "^", .start⟩, ⟨.literal .integer, "9223372036854775807", .start⟩] =
      .error ⟨.fault .overflow, 4⟩ :=
    @evaluate_of_spelled (.ofSign (.call .abs (.one (.ofSingle (.integer "2"))))
      (.integer "9223372036854775807")) _ rfl
  obtain ⟨_, _, agree⟩ := @evaluate_pow_call_agrees _ _
    [⟨.literal .identifier, "abs", .start⟩, Delimiter.leftParen.token,
      ⟨.literal .integer, "2", .start⟩, Delimiter.rightParen.token]
    [⟨.literal .integer, "9223372036854775807", .start⟩] rfl rfl base_fits exponent_fits
    ⟨.literal .identifier, "pow", .start⟩ Delimiter.leftParen.token Delimiter.comma.token
    Delimiter.rightParen.token ⟨.operator .power, "^", .start⟩ ⟨rfl, rfl⟩ rfl rfl rfl rfl
  refine ⟨rfl, base_fits, failed, agree.trans ?_⟩
  exact congrArg (Except.mapError _) failed

end Calculator
