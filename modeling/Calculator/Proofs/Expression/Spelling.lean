import Calculator.Proofs.Expression.Reading

/-!
# Reading spelled trees

Tokens that spell a tree are read as the value of the tree, whatever follows them.  Behind a part
of a product or a sum the loop for the rest goes on with the value of the part; that is what an
induction over trees that grow on their left side needs.
-/

namespace Calculator

theorem exists_of_map_symbol_eq_literal {tokens : List Token} {form : Literal} {text : String}
    (spelled : tokens.map Token.symbol = [.literal form text]) :
    ∃ token, tokens = [token] ∧ token.kind = .literal form ∧ token.text = text := by
  obtain ⟨token, others, rfl, symbol, none⟩ := List.map_eq_cons_iff.mp spelled
  obtain rfl := List.map_eq_nil_iff.mp none
  exact ⟨token, rfl, Token.symbol_eq_literal_iff.mp symbol⟩

theorem exists_of_map_symbol_eq {tokens : List Token} {left right : List Symbol} {symbol : Symbol}
    (spelled : tokens.map Token.symbol = left ++ symbol :: right) :
    ∃ before token after, tokens = before ++ token :: after ∧ before.map Token.symbol = left ∧
      left.length = before.length ∧ token.symbol = symbol ∧ after.map Token.symbol = right := by
  obtain ⟨before, others, rfl, rfl, others_eq⟩ := List.map_eq_append_iff.mp spelled
  obtain ⟨token, after, rfl, token_eq, after_eq⟩ := List.map_eq_cons_iff.mp others_eq
  exact ⟨before, token, after, rfl, rfl, List.length_map _, token_eq, after_eq⟩

theorem exists_of_map_symbol_eq_call {tokens : List Token} {function : Builtin}
    {arguments : Tree (.arguments function.arity)}
    (spelled : tokens.map Token.symbol = (Tree.call function arguments).symbols) :
    ∃ name opening inner closing, tokens = name :: opening :: (inner ++ [closing]) ∧
      name.symbol = .literal .identifier function.name ∧
      opening.kind = Delimiter.kind .leftParen ∧
      inner.map Token.symbol = arguments.symbols ∧ closing.kind = Delimiter.kind .rightParen := by
  obtain ⟨name, others, rfl, name_eq, others_eq⟩ := List.map_eq_cons_iff.mp spelled
  obtain ⟨opening, others, rfl, opening_eq, others_eq⟩ := List.map_eq_cons_iff.mp others_eq
  obtain ⟨inner, closing, more, rfl, inner_eq, _, closing_eq, more_eq⟩ :=
    exists_of_map_symbol_eq others_eq
  obtain rfl := List.map_eq_nil_iff.mp more_eq
  exact ⟨name, opening, inner, closing, rfl, name_eq,
    Token.symbol_eq_delimiter_iff.mp opening_eq, inner_eq,
    Token.symbol_eq_delimiter_iff.mp closing_eq⟩

theorem index_append (index : Nat) (before after : List Token) (token : Token) :
    index + (before ++ token :: after).length = index + before.length + 1 + after.length := by
  rw [List.length_append, List.length_cons]
  omega

namespace Tree

/-- Reading tokens that spell a tree evaluates it and then goes on behind it. -/
def Reads {phrase : Phrase} (tree : Tree phrase) : Prop :=
  ∀ (room index : Nat) {front : List Token} (rest : List Token),
    front.map Token.symbol = tree.symbols →
    phrase.last.Ends (rest.head?.map Token.symbol) →
    phrase.read room ⟨index, front ++ rest⟩ = (do
      let value ← tree.eval room index
      phrase.resume room value ⟨index + front.length, rest⟩)

namespace Reads

theorem integer (text : String) : (Tree.integer text).Reads := by
  intro room index front rest spelled _
  obtain ⟨token, rfl, kind, rfl⟩ := exists_of_map_symbol_eq_literal spelled
  simp only [Phrase.read, List.singleton_append, readOperand, kind, eval]
  cases integerLiteral token.text <;> rfl

theorem float (text : String) : (Tree.float text).Reads := by
  intro room index front rest spelled _
  obtain ⟨token, rfl, kind, rfl⟩ := exists_of_map_symbol_eq_literal spelled
  simp only [Phrase.read, List.singleton_append, readOperand, kind, eval]
  cases floatLiteral token.text <;> rfl

theorem call {function : Builtin} {arguments : Tree (.arguments function.arity)}
    (inside : arguments.Reads) : (Tree.call function arguments).Reads := by
  intro room index front rest spelled _
  obtain ⟨name, opening, inner, closing, rfl, called, opens, inner_eq, closes⟩ :=
    exists_of_map_symbol_eq_call spelled
  cases room with
  | zero => exact Phrase.read_call_zero index _ called opens
  | succ room =>
      have closed : (Phrase.arguments function.arity).Ends (some closing.symbol) := by
        rw [Token.symbol_eq_delimiter_iff.mpr closes]
        exact Phrase.ends_delimiter _ _
      have read := inside room (index + 2) (closing :: rest) inner_eq (Phrase.ends_last closed)
      simp only [List.cons_append, List.append_assoc, List.nil_append]
      rw [Phrase.read_call room index _ called opens, read, eval]
      cases arguments.eval room (index + 2) with
      | error => rfl
      | ok values =>
          dsimp only [bind, Except.bind, Phrase.resume]
          rw [Cursor.expect_of_kind _ _ closes]
          dsimp only
          cases function.call values with
          | error => rfl
          | ok value =>
              dsimp only [Except.mapError]
              simp [pure, Except.pure]
              omega

theorem ofOperand {operand : Tree .operand} (reads : operand.Reads) :
    (Tree.ofOperand operand).Reads := by
  intro room index front rest spelled ends
  rw [Phrase.read_power, reads room index rest spelled (Phrase.ends_operand _), eval]
  cases operand.eval room index with
  | error => rfl
  | ok value =>
      dsimp only [bind, Except.bind]
      rw [Phrase.resume_of_ends (.chain .power) _ _ value ends]
      dsimp only [Phrase.resume]
      rw [Cursor.operator?_of_ends _ ends]
      rfl

theorem raise {base : Tree .operand} {exponent : Tree (.chain .power)} (base_reads : base.Reads)
    (exponent_reads : exponent.Reads) : (Tree.raise base exponent).Reads := by
  intro room index front rest spelled ends
  obtain ⟨before, sign, after, rfl, before_eq, length_eq, sign_eq, after_eq⟩ :=
    exists_of_map_symbol_eq spelled
  have kind : sign.kind = .operator .power := Token.symbol_eq_operator_iff.mp sign_eq
  rw [List.append_assoc, List.cons_append, Phrase.read_power,
    base_reads room index _ before_eq (Phrase.ends_operand _), eval, length_eq, index_append]
  cases base.eval room index with
  | error => rfl
  | ok value =>
      dsimp only [bind, Except.bind]
      rw [Phrase.resume_of_ends .operand _ _ value (Phrase.ends_operand _)]
      dsimp only
      rw [Cursor.operator?_of_kind .power _ _ kind rfl]
      dsimp only
      rw [exponent_reads room _ rest after_eq ends]
      cases exponent.eval room (index + before.length + 1) with
      | error => rfl
      | ok power =>
          dsimp only [bind, Except.bind]
          rw [Phrase.resume_of_ends (.chain .power) _ _ power ends]
          dsimp only
          cases value.pow power with
          | error => rfl
          | ok result => exact (Phrase.resume_of_ends (.chain .power) _ _ result ends).symm

theorem single {whole part : Level} (joins : whole.Joins part) {operand : Tree (.chain part)}
    (reads : operand.Reads) : (Tree.single joins operand).Reads := by
  intro room index front rest spelled ends
  rw [Phrase.last_of_joins joins] at ends
  rw [Phrase.read_chain joins, reads room index rest spelled (Phrase.ends_last ends), eval]
  cases operand.eval room index with
  | error => rfl
  | ok value =>
      dsimp only [bind, Except.bind]
      rw [Phrase.resume_of_ends (.chain part) _ _ value ends]

/-- The operator behind the left part of a chain keeps the loop going: it does not end the chain but
its last operand, and that is all that reading the left part asks for. -/
theorem join {whole part : Level} (joins : whole.Joins part) {left : Tree (.chain whole)}
    {right : Tree (.chain part)} {sign : Operator} (bound : sign.level = whole)
    (left_reads : left.Reads) (right_reads : right.Reads) :
    (Tree.join joins left sign bound right).Reads := by
  intro room index front rest spelled ends
  obtain ⟨before, token, after, rfl, before_eq, length_eq, token_eq, after_eq⟩ :=
    exists_of_map_symbol_eq spelled
  have kind : token.kind = .operator sign := Token.symbol_eq_operator_iff.mp token_eq
  have left_ends := Phrase.ends_part_sign joins bound
  rw [← token_eq, ← Phrase.last_of_joins joins] at left_ends
  rw [List.append_assoc, List.cons_append,
    left_reads room index (token :: (after ++ rest)) before_eq left_ends, eval, length_eq,
    index_append]
  rw [Phrase.last_of_joins joins] at ends
  cases left.eval room index with
  | error => rfl
  | ok value =>
      dsimp only [bind, Except.bind]
      rw [Phrase.resume_chain joins value (Cursor.operator?_of_kind whole _ _ kind bound),
        right_reads room _ rest after_eq (Phrase.ends_last ends)]
      cases right.eval room (index + before.length + 1) with
      | error => rfl
      | ok operand =>
          dsimp only [bind, Except.bind]
          rw [Phrase.resume_of_ends (.chain part) _ _ operand ends]

theorem one {argument : Tree (.chain .sum)} (reads : argument.Reads) :
    (Tree.one argument).Reads := by
  intro room index front rest spelled ends
  rw [Phrase.read_arguments_one, reads room index rest spelled (Phrase.ends_last ends), eval]
  cases argument.eval room index with
  | error => rfl
  | ok value =>
      dsimp only [bind, Except.bind]
      rw [Phrase.resume_of_ends (.chain .sum) _ _ value ends]
      rfl

theorem more {count : Nat} {earlier : Tree (.arguments (count + 1))} {last : Tree (.chain .sum)}
    (earlier_reads : earlier.Reads) (last_reads : last.Reads) :
    (Tree.more earlier last).Reads := by
  intro room index front rest spelled ends
  obtain ⟨before, comma, after, rfl, before_eq, length_eq, comma_eq, after_eq⟩ :=
    exists_of_map_symbol_eq spelled
  have kind : comma.kind = Delimiter.kind .comma := Token.symbol_eq_delimiter_iff.mp comma_eq
  have earlier_ends := Phrase.ends_delimiter (.arguments (count + 1)) .comma
  rw [← comma_eq] at earlier_ends
  rw [List.append_assoc, List.cons_append, Phrase.read_arguments_more,
    earlier_reads room index (comma :: (after ++ rest)) before_eq earlier_ends, eval, length_eq,
    index_append]
  cases earlier.eval room index with
  | error => rfl
  | ok values =>
      dsimp only [bind, Except.bind, Phrase.resume]
      rw [Cursor.expect_of_kind _ _ kind]
      dsimp only
      rw [last_reads room _ rest after_eq (Phrase.ends_last ends)]
      cases last.eval room (index + before.length + 1) with
      | error => rfl
      | ok value =>
          dsimp only [bind, Except.bind]
          rw [Phrase.resume_of_ends (.chain .sum) _ _ value ends]
          rfl

end Reads

/-- Reading any spelled tree evaluates it and then goes on behind it. -/
theorem reads {phrase : Phrase} (tree : Tree phrase) : tree.Reads := by
  induction tree with
  | integer text => exact Reads.integer text
  | float text => exact Reads.float text
  | call function arguments induction => exact Reads.call induction
  | ofOperand operand induction => exact Reads.ofOperand induction
  | raise base exponent base_induction exponent_induction =>
      exact Reads.raise base_induction exponent_induction
  | single joins operand induction => exact Reads.single joins induction
  | join joins left sign bound right left_induction right_induction =>
      exact Reads.join joins bound left_induction right_induction
  | one argument induction => exact Reads.one induction
  | more earlier last earlier_induction last_induction =>
      exact Reads.more earlier_induction last_induction

theorem read_of_ends {phrase : Phrase} (tree : Tree phrase) (room index : Nat)
    {front rest : List Token} (spelled : front.map Token.symbol = tree.symbols)
    (ends : phrase.Ends (rest.head?.map Token.symbol)) :
    phrase.read room ⟨index, front ++ rest⟩ =
      (tree.eval room index).map (·, ⟨index + front.length, rest⟩) := by
  rw [tree.reads room index rest spelled (Phrase.ends_last ends)]
  cases tree.eval room index with
  | error => rfl
  | ok value => exact Phrase.resume_of_ends phrase room _ value ends

end Tree

/-- Tokens that spell a sum are evaluated to what its tree stands for, or to the first failure in
it, whatever follows them but an operator. -/
theorem evaluate_append_of_spelled (tree : Tree (.chain .sum)) (tokens tail : List Token)
    (spelled : tokens.map Token.symbol = tree.symbols)
    (ended : ∀ token ∈ tail.head?, ∀ sign, token.kind ≠ .operator sign) :
    evaluate (tokens ++ tail) = tree.eval maxNesting 0 := by
  rw [evaluate_eq_read, tree.read_of_ends maxNesting 0 spelled (Phrase.ends_of_no_operator _ ended)]
  cases tree.eval maxNesting 0 <;> rfl

/-- The quotient `6 / 0` in front of a parenthesis fails at its sign. -/
theorem evaluate_quotient_by_zero :
    [⟨.literal .integer, "6", ⟨1, 1⟩⟩, ⟨.operator .divide, "/", ⟨1, 3⟩⟩,
        ⟨.literal .integer, "0", ⟨1, 5⟩⟩].map Token.symbol =
      (Tree.single .sum (.join .product (.single .product (.ofOperand (.integer "6"))) .divide rfl
        (.ofOperand (.integer "0")))).symbols ∧
    (∀ token ∈ [(⟨.punctuation .rightParen, ")", ⟨1, 6⟩⟩ : Token)].head?,
      ∀ sign, token.kind ≠ .operator sign) ∧
    evaluate ([⟨.literal .integer, "6", ⟨1, 1⟩⟩, ⟨.operator .divide, "/", ⟨1, 3⟩⟩,
        ⟨.literal .integer, "0", ⟨1, 5⟩⟩] ++ [⟨.punctuation .rightParen, ")", ⟨1, 6⟩⟩]) =
      .error ⟨.fault .divisionByZero, 1⟩ := by
  have closing : ∀ token ∈ [(⟨.punctuation .rightParen, ")", ⟨1, 6⟩⟩ : Token)].head?,
      ∀ sign, token.kind ≠ .operator sign := by
    intro token next sign
    obtain rfl := Option.some.inj next
    exact nofun
  exact ⟨rfl, closing, evaluate_append_of_spelled
    (.single .sum (.join .product (.single .product (.ofOperand (.integer "6"))) .divide rfl
      (.ofOperand (.integer "0")))) _ _ rfl closing⟩

end Calculator
