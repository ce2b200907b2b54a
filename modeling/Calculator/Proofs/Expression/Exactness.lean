import Calculator.Proofs.Expression.Acceptance
import Calculator.Proofs.Expression.Operations

/-!
# Exact expressions

An integer result is the exact value of the expression: no float can have come in on the way.  The
other way round, an expression of integers alone has its exact value as result, or fails at the
first of its operations that 64 bits cannot hold.
-/

namespace Calculator

/-- What a phrase stands for is the integer, or are the integers, of the given size. -/
def Phrase.Denotes : (phrase : Phrase) → phrase.Meaning → phrase.Exact → Prop
  | operand, value, n | chain _, value, n => value.Denotes n
  | arguments count, values, exacts =>
    ∀ (i : Nat) (inside : i < count), values[i].Denotes exacts[i]

theorem Phrase.Denotes.unique {phrase : Phrase} {value : phrase.Meaning} {m n : phrase.Exact}
    (denotes : phrase.Denotes value m) (other : phrase.Denotes value n) : m = n := by
  cases phrase with
  | operand | chain level => exact Value.Denotes.unique denotes other
  | arguments count =>
      exact Vector.ext fun i inside => Value.Denotes.unique (denotes i inside) (other i inside)

theorem Phrase.denotes_one {value : Value} {n : Int} (denotes : value.Denotes n) :
    (arguments 1).Denotes #v[value] #v[n] := by
  intro i inside
  obtain rfl : i = 0 := Nat.lt_one_iff.mp inside
  exact denotes

theorem Phrase.denotes_push_iff {count : Nat} {values : Vector Value count} {value : Value}
    {exacts : Vector Int count} {n : Int} :
    (arguments (count + 1)).Denotes (values.push value) (exacts.push n) ↔
      (arguments count).Denotes values exacts ∧ value.Denotes n := by
  constructor
  · intro denotes
    refine ⟨fun i inside => ?_, ?_⟩
    · simpa [Vector.getElem_push, inside] using denotes i (Nat.lt_succ_of_lt inside)
    · simpa [Vector.getElem_push] using denotes count (Nat.lt_succ_self count)
  · rintro ⟨values_denote, denotes⟩ i inside
    rw [Vector.getElem_push, Vector.getElem_push]
    split
    · exact values_denote i ‹_›
    · exact denotes

theorem Operator.exists_operation?_of_ne {sign : Operator} (noQuotient : sign ≠ .divide)
    (m n : Int) : ∃ operation, sign.operation? m n = some operation := by
  cases sign with
  | divide => exact absurd rfl noQuotient
  | plus | minus | multiply | modulo | power => exact ⟨_, rfl⟩

theorem Builtin.exists_operation?_of_eq {function : Builtin}
    (whole : function = .abs ∨ function = .pow) (arguments : Vector Int function.arity) :
    ∃ operation, function.operation? arguments = some operation := by
  rcases whole with rfl | rfl <;> exact ⟨_, rfl⟩

theorem agrees_integerLiteral {text : String} {n : Int}
    (read : Numeral.toInt? text.toList = some n) :
    ∃ outcome, integerLiteral text = outcome.mapError .fault ∧
      (Operation.literal n).Agrees outcome := by
  refine ⟨Value.ofInt n, ?_, Operation.agrees_ofInt rfl⟩
  rw [integerLiteral, read]

/-- An expression of integers has its exact value or fails at its first fault. -/
theorem Tree.settles {phrase : Phrase} {tree : Tree phrase} {room index : Nat}
    (whole : tree.IsWhole) (deep : tree.depth ≤ room)
    (natural : NaturalWhereReached (tree.operations index)) :
    Settles phrase.Denotes (tree.operations index) tree.exactValue (tree.eval room index) := by
  induction tree generalizing room index with
  | integer text =>
      obtain ⟨n, read⟩ := Option.isSome_iff_exists.mp whole
      obtain ⟨outcome, literal, agrees⟩ := agrees_integerLiteral read
      have settles := Settles.of_agrees index agrees
      rw [operations, exactValue, eval, read, literal]
      -- A fault of a literal becomes a cause and then an error, which is one step for other faults.
      cases outcome <;> exact settles
  | float text => exact whole.elim
  | call function arguments induction =>
      cases room with
      | zero => exact absurd deep (Nat.not_succ_le_zero _)
      | succ room =>
          obtain ⟨operation, found⟩ :=
            Builtin.exists_operation?_of_eq whole.1 arguments.exactValue
          rw [operations, found] at natural
          rw [operations, exactValue, found]
          refine .bind (induction whole.2 (Nat.le_of_succ_le_succ deep) natural.left) ?_
          intro faultless values denotes
          exact .of_agrees index (Builtin.agrees denotes found (natural.right faultless).only)
  | ofOperand operand induction => exact induction whole deep natural
  | raise base exponent base_induction exponent_induction =>
      obtain ⟨base_deep, exponent_deep⟩ := Nat.max_le.mp deep
      refine .bind (base_induction whole.1 base_deep natural.left) ?_
      intro base_faultless left left_denotes
      have later := natural.right base_faultless
      refine .bind (exponent_induction whole.2 exponent_deep later.left) ?_
      intro exponent_faultless right right_denotes
      exact .of_agrees _ (@Operator.agrees .power _ _ _ _ _ left_denotes right_denotes rfl
        (later.right exponent_faultless).only)
  | single joins operand induction => exact induction whole deep natural
  | join joins left sign bound right left_induction right_induction =>
      obtain ⟨noQuotient, left_whole, right_whole⟩ := whole
      obtain ⟨left_deep, right_deep⟩ := Nat.max_le.mp deep
      obtain ⟨operation, found⟩ :=
        sign.exists_operation?_of_ne noQuotient left.exactValue right.exactValue
      rw [operations, found] at natural
      rw [operations, exactValue, found]
      refine .bind (left_induction left_whole left_deep natural.left) ?_
      intro left_faultless first first_denotes
      have later := natural.right left_faultless
      refine .bind (right_induction right_whole right_deep later.left) ?_
      intro right_faultless second second_denotes
      exact .of_agrees _ (Operator.agrees first_denotes second_denotes found
        (later.right right_faultless).only)
  | one argument induction =>
      rw [operations, ← List.append_nil (argument.operations index)]
      refine .bind (induction whole deep natural) fun _ value denotes => .pure ?_
      exact Phrase.denotes_one denotes
  | more earlier last earlier_induction last_induction =>
      obtain ⟨earlier_deep, last_deep⟩ := Nat.max_le.mp deep
      refine .bind (earlier_induction whole.1 earlier_deep natural.left) ?_
      intro earlier_faultless values values_denote
      rw [← List.append_nil (last.operations _)]
      refine .bind (last_induction whole.2 last_deep (natural.right earlier_faultless)) ?_
      intro _ value denotes
      exact .pure (Phrase.denotes_push_iff.mpr ⟨values_denote, denotes⟩)

/-- A value of an expression of integers is the exact one, and no operation has a fault. -/
theorem Tree.denotes_exactValue {phrase : Phrase} {tree : Tree phrase} {room index : Nat}
    {value : phrase.Meaning} (evaluated : tree.eval room index = .ok value)
    (whole : tree.IsWhole)
    (natural : ∀ entry ∈ tree.operations index, entry.2.HasNaturalExponent) :
    phrase.Denotes value tree.exactValue ∧ firstFault? (tree.operations index) = none := by
  have settles := settles whole (readable_and_depth_le evaluated).2 (.of_forall natural)
  cases found : firstFault? (tree.operations index) with
  | some error =>
      rw [settles.fails error found] at evaluated
      cases evaluated
  | none =>
      obtain ⟨other, same, denotes⟩ := settles.succeeds found
      obtain rfl := Except.ok.inj (same.symm.trans evaluated)
      exact ⟨denotes, rfl⟩

theorem Tree.eq_exactValue {phrase : Phrase} {tree : Tree phrase} {room index : Nat}
    {value : phrase.Meaning} {n : phrase.Exact} (evaluated : tree.eval room index = .ok value)
    (denotes : phrase.Denotes value n)
    (whole : tree.IsWhole ∧ ∀ entry ∈ tree.operations index, entry.2.HasNaturalExponent) :
    n = tree.exactValue :=
  denotes.unique (denotes_exactValue evaluated whole.1 whole.2).1

theorem isSome_of_integerLiteral {text : String} {value : Value}
    (read : integerLiteral text = .ok value) : (Numeral.toInt? text.toList).isSome := by
  unfold integerLiteral at read
  split at read
  · rename_i found
    rw [found]
    rfl
  · cases read

theorem not_denotes_of_floatLiteral {text : String} {value : Value} {n : Int}
    (read : floatLiteral text = .ok value) : ¬value.Denotes n := by
  unfold floatLiteral at read
  split at read
  · cases read
    exact Value.not_denotes_float _ n
  · cases read

theorem Builtin.eq_of_operation? {function : Builtin} {arguments : Vector Int function.arity}
    {operation : Operation} (found : function.operation? arguments = some operation) :
    function = .abs ∨ function = .pow := by
  cases function with
  | sin | cos | tan | sqrt | log | ln => cases found
  | abs => exact .inl rfl
  | pow => exact .inr rfl

theorem Operator.ne_of_operation? {sign : Operator} {m n : Int} {operation : Operation}
    (found : sign.operation? m n = some operation) : sign ≠ .divide := by
  rintro rfl
  cases found

theorem Tree.isWhole_of_eval {phrase : Phrase} {tree : Tree phrase} {room index : Nat}
    {value : phrase.Meaning} {n : phrase.Exact} (evaluated : tree.eval room index = .ok value)
    (denotes : phrase.Denotes value n) :
    tree.IsWhole ∧ ∀ entry ∈ tree.operations index, entry.2.HasNaturalExponent := by
  induction tree generalizing room index with
  | integer text =>
      refine ⟨isSome_of_integerLiteral (mapError_eq_ok_iff.mp evaluated), fun entry member => ?_⟩
      obtain rfl := List.mem_singleton.mp member
      trivial
  | float text =>
      exact absurd denotes (not_denotes_of_floatLiteral (mapError_eq_ok_iff.mp evaluated))
  | call function arguments induction =>
      cases room with
      | zero => cases evaluated
      | succ room =>
          obtain ⟨values, inner, called⟩ := bind_eq_ok_iff.mp evaluated
          obtain ⟨exacts, operation, each, found, natural⟩ :=
            Builtin.exists_operation (mapError_eq_ok_iff.mp called) denotes
          -- The arguments denote integers, and those are what their trees come to exactly.
          have inner_whole := induction inner each
          obtain rfl := eq_exactValue inner each inner_whole
          refine ⟨⟨Builtin.eq_of_operation? found, inner_whole.1⟩, ?_⟩
          rw [operations, found, List.forall_mem_append]
          exact ⟨inner_whole.2, by simpa using natural⟩
  | ofOperand operand induction => exact induction evaluated denotes
  | raise base exponent base_induction exponent_induction =>
      obtain ⟨left, base_evaluated, later⟩ := bind_eq_ok_iff.mp evaluated
      obtain ⟨right, exponent_evaluated, applied⟩ := bind_eq_ok_iff.mp later
      obtain ⟨m, n, operation, left_denotes, right_denotes, found, natural⟩ :=
        @Operator.exists_operation .power _ _ _ _ (mapError_eq_ok_iff.mp applied) denotes
      have base_whole := base_induction base_evaluated left_denotes
      have exponent_whole := exponent_induction exponent_evaluated right_denotes
      obtain rfl := eq_exactValue base_evaluated left_denotes base_whole
      obtain rfl := eq_exactValue exponent_evaluated right_denotes exponent_whole
      cases found
      refine ⟨⟨base_whole.1, exponent_whole.1⟩, ?_⟩
      rw [operations, List.forall_mem_append, List.forall_mem_append]
      exact ⟨base_whole.2, exponent_whole.2, by simpa using natural⟩
  | single joins operand induction => exact induction evaluated denotes
  | join joins left sign bound right left_induction right_induction =>
      obtain ⟨first, left_evaluated, later⟩ := bind_eq_ok_iff.mp evaluated
      obtain ⟨second, right_evaluated, applied⟩ := bind_eq_ok_iff.mp later
      obtain ⟨m, n, operation, first_denotes, second_denotes, found, natural⟩ :=
        Operator.exists_operation (mapError_eq_ok_iff.mp applied) denotes
      have left_whole := left_induction left_evaluated first_denotes
      have right_whole := right_induction right_evaluated second_denotes
      obtain rfl := eq_exactValue left_evaluated first_denotes left_whole
      obtain rfl := eq_exactValue right_evaluated second_denotes right_whole
      refine ⟨⟨Operator.ne_of_operation? found, left_whole.1, right_whole.1⟩, ?_⟩
      rw [operations, found, List.forall_mem_append, List.forall_mem_append]
      exact ⟨left_whole.2, right_whole.2, by simpa using natural⟩
  | one argument induction =>
      obtain ⟨value, argument_evaluated, returned⟩ := bind_eq_ok_iff.mp evaluated
      cases returned
      exact induction argument_evaluated (denotes 0 Nat.one_pos)
  | more earlier last earlier_induction last_induction =>
      obtain ⟨values, earlier_evaluated, later⟩ := bind_eq_ok_iff.mp evaluated
      obtain ⟨value, last_evaluated, returned⟩ := bind_eq_ok_iff.mp later
      cases returned
      rw [← Vector.push_pop_back n, Phrase.denotes_push_iff] at denotes
      obtain ⟨values_denote, denotes⟩ := denotes
      obtain ⟨earlier_whole, earlier_natural⟩ := earlier_induction earlier_evaluated values_denote
      obtain ⟨last_whole, last_natural⟩ := last_induction last_evaluated denotes
      exact ⟨⟨earlier_whole, last_whole⟩,
        List.forall_mem_append.mpr ⟨earlier_natural, last_natural⟩⟩

/-- An integer result is the exact value of an expression of integers with exponents that are not
negative.  The other way round, such an expression has its exact value as result if 64 bits hold
every number on the way and no remainder is by zero, and otherwise fails at the token of the first
operation that is against this. -/
theorem evaluate_exact_on_integers (tokens : List Token) :
    (∀ n : Int64, evaluate tokens = .ok (.integer n) →
      ∃ (tree : Tree (.chain .sum)) (tail : List Token), tree.Begins tokens tail ∧ tree.IsWhole ∧
        (∀ entry ∈ tree.operations 0,
          entry.2.HasNaturalExponent ∧ entry.2.fault? = none) ∧
        n.toInt = tree.exactValue) ∧
    ∀ (tree : Tree (.chain .sum)) (tail : List Token), tree.Begins tokens tail → tree.IsWhole →
      tree.depth ≤ maxNesting → NaturalWhereReached (tree.operations 0) →
      ((∀ entry ∈ tree.operations 0, entry.2.fault? = none) →
        ∃ n : Int64, n.toInt = tree.exactValue ∧ evaluate tokens = .ok (.integer n)) ∧
      ∀ (before after : List (Nat × Operation)) (entry : Nat × Operation) (reason : Fault),
        tree.operations 0 = before ++ entry :: after →
        (∀ earlier ∈ before, earlier.2.fault? = none) → entry.2.fault? = some reason →
        evaluate tokens = .error ⟨.fault reason, entry.1⟩ ∧
          ∃ token, tokens[entry.1]? = some token ∧ token.symbol.Performs entry.2 := by
  constructor
  · intro n result
    obtain ⟨tree, tail, begins⟩ := exists_begins_of_evaluate result
    have evaluated := begins.evaluate_eq.symm.trans result
    have isInteger : (Phrase.chain .sum).Denotes (.integer n) n.toInt := ⟨n, rfl, rfl⟩
    obtain ⟨whole, natural⟩ := Tree.isWhole_of_eval evaluated isInteger
    obtain ⟨denotes, faultless⟩ := Tree.denotes_exactValue evaluated whole natural
    rw [firstFault?_eq_none_iff] at faultless
    exact ⟨tree, tail, begins, whole,
      fun entry member => ⟨natural entry member, faultless entry member⟩,
      isInteger.unique denotes⟩
  · intro tree tail begins whole deep natural
    have settles := Tree.settles whole deep natural
    rw [begins.evaluate_eq]
    constructor
    · intro faultless
      obtain ⟨value, evaluated, n, size, rfl⟩ :=
        settles.succeeds (firstFault?_eq_none_iff.mpr faultless)
      exact ⟨n, size, evaluated⟩
    · intro before after entry reason split faultless fault
      have first := firstFault?_of_split after faultless fault
      rw [← split] at first
      refine ⟨settles.fails _ first, ?_⟩
      have member : entry ∈ tree.operations 0 := by
        rw [split]
        simp
      obtain ⟨offset, symbol, position, found, performs⟩ :=
        Tree.performedIn_symbols whole entry member
      obtain ⟨token, standing, rfl⟩ := begins.getElem?_symbol found
      rw [position, Nat.zero_add]
      exact ⟨token, standing, performs⟩

/-- In `7 % 0` both literals are integers, and the sign between them is to blame. -/
theorem evaluate_remainder_by_zero :
    evaluate [⟨.literal .integer, "7", ⟨1, 1⟩⟩, ⟨.operator .modulo, "%", ⟨1, 3⟩⟩,
        ⟨.literal .integer, "0", ⟨1, 5⟩⟩] = .error ⟨.fault .moduloByZero, 1⟩ := by
  have begins : (Tree.single .sum (.join .product (.single .product (.ofOperand (.integer "7")))
      .modulo rfl (.ofOperand (.integer "0")))).Begins
      [⟨.literal .integer, "7", ⟨1, 1⟩⟩, ⟨.operator .modulo, "%", ⟨1, 3⟩⟩,
        ⟨.literal .integer, "0", ⟨1, 5⟩⟩] [] :=
    ⟨_, (List.append_nil _).symm, rfl, nofun⟩
  have seven : Numeral.toInt? "7".toList = some 7 := by decide
  have zero : Numeral.toInt? "0".toList = some 0 := by decide
  have general := (evaluate_exact_on_integers _).2 _ [] begins
  simp only [Tree.IsWhole, Tree.operations, Tree.exactValue, Tree.symbols, Operator.operation?,
    seven, zero] at general
  have natural : NaturalWhereReached [(0, .literal 7), (2, .literal 0), (1, .remainder 7 0)] :=
    .of_forall (by simp [Operation.HasNaturalExponent])
  have split := (general (by decide) (by decide) natural).2 [(0, .literal 7), (2, .literal 0)] []
    (1, .remainder 7 0) .moduloByZero rfl
  exact (split (by decide) rfl).1

end Calculator
