import Calculator.Proofs.Expression.Acceptance
import Calculator.Proofs.Value.Fault

/-!
# Where syntax errors stand

Tokens are viable if they can be completed to an expression.  Reading that fails for syntax leaves
open calls and operators whose missing parts can always be filled in, so the tokens in front of the
error are viable.  With the offending token they are not: the same error comes about before any
continuation, and readable trees have no syntax errors.
-/

namespace Calculator

/-- Causes that lie in the sequence of the tokens and not in the values. -/
def Cause.IsSyntactic : Cause → Prop
  | .endOfTokens | .unexpected _ _ | .unknownName _ => True
  | .fault _ | .nestingTooDeep => False

/-- The text that a cause reports as found. -/
def Cause.found? : Cause → Option String
  | .unexpected _ found => found
  | .unknownName name => some name
  | .endOfTokens | .fault _ | .nestingTooDeep => none

theorem Cause.isSyntactic_of_text {cause : Cause}
    (withText : (∃ expected text, cause = .unexpected expected (some text)) ∨
      ∃ name, cause = .unknownName name) :
    cause.IsSyntactic ∧ ∃ text, cause.found? = some text := by
  rcases withText with ⟨_, text, rfl⟩ | ⟨name, rfl⟩
  · exact ⟨trivial, text, rfl⟩
  · exact ⟨trivial, name, rfl⟩

theorem Cause.isSyntactic_of_no_text {cause : Cause}
    (withoutText : cause = .endOfTokens ∨ ∃ expected, cause = .unexpected expected none) :
    cause.IsSyntactic ∧ cause.found? = none := by
  rcases withoutText with rfl | ⟨_, rfl⟩ <;> exact ⟨trivial, rfl⟩

/-- Tokens are a complete expression with readable literals. -/
def WellFormed (tokens : List Token) : Prop :=
  ∃ tree : Tree (.chain .sum), tree.Readable ∧ tokens.map Token.symbol = tree.symbols

/-- Tokens can be completed to an expression. -/
def Viable (tokens : List Token) : Prop :=
  ∃ continuation, WellFormed (tokens ++ continuation)

theorem Tree.not_isSyntactic_of_eval {phrase : Phrase} {tree : Tree phrase} {room index : Nat}
    {error : EvalError} (readable : tree.Readable)
    (failed : tree.eval room index = .error error) : ¬error.cause.IsSyntactic := by
  have fault {reason : Except Fault Value} {position : Nat}
      (failed : reason.mapError (⟨Cause.fault ·, position⟩) = .error error) :
      ¬error.cause.IsSyntactic := by
    obtain ⟨_, _, rfl⟩ := mapError_eq_error_iff.mp failed
    exact id
  induction tree generalizing room index with
  | integer text =>
      obtain ⟨value, read⟩ := readable
      rw [eval, read] at failed
      cases failed
  | float text =>
      obtain ⟨value, read⟩ := readable
      rw [eval, read] at failed
      cases failed
  | call function arguments induction =>
      cases room with
      | zero =>
          obtain rfl := Except.error.inj failed
          exact id
      | succ room =>
          rcases bind_eq_error_iff.mp failed with inner | ⟨values, _, applied⟩
          · exact induction readable inner
          · exact fault applied
  | ofOperand operand induction => exact induction readable failed
  | raise base exponent base_induction exponent_induction =>
      rcases bind_eq_error_iff.mp failed with first | ⟨left, _, later⟩
      · exact base_induction readable.1 first
      · rcases bind_eq_error_iff.mp later with second | ⟨right, _, applied⟩
        · exact exponent_induction readable.2 second
        · exact fault applied
  | single joins operand induction => exact induction readable failed
  | join joins left sign bound right left_induction right_induction =>
      rcases bind_eq_error_iff.mp failed with first | ⟨_, _, later⟩
      · exact left_induction readable.1 first
      · rcases bind_eq_error_iff.mp later with second | ⟨_, _, applied⟩
        · exact right_induction readable.2 second
        · exact fault applied
  | one argument induction =>
      rcases bind_eq_error_iff.mp failed with first | ⟨_, _, returned⟩
      · exact induction readable first
      · cases returned
  | more earlier last earlier_induction last_induction =>
      rcases bind_eq_error_iff.mp failed with first | ⟨_, _, later⟩
      · exact earlier_induction readable.1 first
      · rcases bind_eq_error_iff.mp later with second | ⟨_, _, returned⟩
        · exact last_induction readable.2 second
        · cases returned

theorem integerLiteral_not_isSyntactic {text : String} {cause : Cause}
    (unread : integerLiteral text = .error cause) : ¬cause.IsSyntactic := by
  rw [eq_overflow_of_integerLiteral unread]
  exact id

theorem floatLiteral_found {text : String} {cause : Cause}
    (unread : floatLiteral text = .error cause) : cause.found? = some text := by
  rw [eq_unexpected_of_floatLiteral unread]
  rfl

theorem Refused.found_eq {next : Option Token} {cause : Cause} (refused : Refused next cause)
    (syntactic : cause.IsSyntactic) : cause.found? = next.map Token.text := by
  cases refused with
  | noToken => rfl
  | integer kind unread => exact absurd syntactic (integerLiteral_not_isSyntactic unread)
  | float kind unread => exact floatLiteral_found unread
  | name kind unknown => rfl
  | noOperand kind => rfl

/-- A failure for syntax stands at the next token and reports its text. -/
theorem Failure.position_and_found_eq {phrase : Phrase} {room index : Nat} {front : List Token}
    {next : Option Token} {error : EvalError} (failure : Failure phrase room index front next error)
    (syntactic : error.cause.IsSyntactic) :
    error.position = index + front.length ∧ error.cause.found? = next.map Token.text := by
  induction failure with
  | operand refused => exact ⟨rfl, refused.found_eq syntactic⟩
  | opening | comma => exact ⟨rfl, rfl⟩
  | nesting | fault => exact syntactic.elim
  | closing =>
      refine ⟨?_, rfl⟩
      simp only [List.length_cons]
      omega
  | inside _ _ _ induction =>
      obtain ⟨position, found⟩ := induction syntactic
      refine ⟨?_, found⟩
      simp only [position, List.length_cons]
      omega
  | base _ induction | only _ induction | earlier _ induction => exact induction syntactic
  | first _ _ induction => exact induction syntactic
  | exponent _ _ _ induction | last _ _ _ induction =>
      rw [index_append]
      exact induction syntactic
  | right _ _ _ _ _ induction =>
      rw [index_append]
      exact induction syntactic

/-- Tokens can be completed to a phrase. -/
def Phrase.Viable (phrase : Phrase) (tokens : List Token) : Prop :=
  ∃ (tree : Tree phrase) (continuation : List Token),
    tree.Readable ∧ (tokens ++ continuation).map Token.symbol = tree.symbols

/-- A token of the literal zero. -/
def Token.zero : Token := ⟨.literal .integer, "0", .start⟩

/-- A token of a delimiter. -/
def Delimiter.token (mark : Delimiter) : Token := ⟨mark.kind, mark.kind.name, .start⟩

theorem Delimiter.kind_token {mark : Delimiter} : mark.token.kind = mark.kind := rfl

namespace Phrase

theorem viable_of_append {phrase : Phrase} {tokens more : List Token}
    (viable : phrase.Viable (tokens ++ more)) : phrase.Viable tokens := by
  obtain ⟨tree, continuation, readable, spelled⟩ := viable
  exact ⟨tree, more ++ continuation, readable, by rw [← List.append_assoc]; exact spelled⟩

theorem viable_of_spelled {phrase : Phrase} {tree : Tree phrase} {tokens : List Token}
    (readable : tree.Readable) (spelled : tokens.map Token.symbol = tree.symbols) :
    phrase.Viable tokens :=
  ⟨tree, [], readable, by rw [List.append_nil]; exact spelled⟩

theorem viable_power {tokens : List Token} (viable : operand.Viable tokens) :
    (chain .power).Viable tokens := by
  obtain ⟨tree, continuation, readable, spelled⟩ := viable
  exact ⟨.ofOperand tree, continuation, readable, spelled⟩

theorem viable_chain {whole part : Level} (joins : whole.Joins part) {tokens : List Token}
    (viable : (chain part).Viable tokens) : (chain whole).Viable tokens := by
  obtain ⟨tree, continuation, readable, spelled⟩ := viable
  exact ⟨.single joins tree, continuation, readable, spelled⟩

theorem viable_one {tokens : List Token} (viable : (chain .sum).Viable tokens) :
    (arguments 1).Viable tokens := by
  obtain ⟨tree, continuation, readable, spelled⟩ := viable
  exact ⟨.one tree, continuation, readable, spelled⟩

theorem viable_exponent {base : Tree .operand} {before front : List Token} {sign : Token}
    (readable : base.Readable) (spelled : before.map Token.symbol = base.symbols)
    (kind : sign.kind = .operator .power) (viable : (chain .power).Viable front) :
    (chain .power).Viable (before ++ sign :: front) := by
  obtain ⟨exponent, continuation, exponent_readable, exponent_spelled⟩ := viable
  refine ⟨.raise base exponent, continuation, ⟨readable, exponent_readable⟩, ?_⟩
  rw [List.append_assoc, List.cons_append]
  exact Tree.symbols_raise spelled kind exponent_spelled

theorem viable_right {whole part : Level} (joins : whole.Joins part) {left : Tree (.chain whole)}
    {before front : List Token} {token : Token} {sign : Operator} (readable : left.Readable)
    (spelled : before.map Token.symbol = left.symbols) (kind : token.kind = .operator sign)
    (bound : sign.level = whole) (viable : (chain part).Viable front) :
    (chain whole).Viable (before ++ token :: front) := by
  obtain ⟨right, continuation, right_readable, right_spelled⟩ := viable
  refine ⟨.join joins left sign bound right, continuation, ⟨readable, right_readable⟩, ?_⟩
  rw [List.append_assoc, List.cons_append]
  exact Tree.symbols_join joins bound spelled kind right_spelled

theorem viable_last {count : Nat} {earlier : Tree (.arguments (count + 1))}
    {before front : List Token} {comma : Token} (readable : earlier.Readable)
    (spelled : before.map Token.symbol = earlier.symbols)
    (kind : comma.kind = Delimiter.kind .comma) (viable : (chain .sum).Viable front) :
    (arguments (count + 2)).Viable (before ++ comma :: front) := by
  obtain ⟨last, continuation, last_readable, last_spelled⟩ := viable
  refine ⟨.more earlier last, continuation, ⟨readable, last_readable⟩, ?_⟩
  rw [List.append_assoc, List.cons_append]
  exact Tree.symbols_more spelled kind last_spelled

theorem viable_call {function : Builtin} {name opening : Token} {front : List Token}
    (called : name.symbol = .literal .identifier function.name)
    (opens : opening.kind = Delimiter.kind .leftParen)
    (viable : (arguments function.arity).Viable front) :
    operand.Viable (name :: opening :: front) := by
  obtain ⟨inner, continuation, readable, spelled⟩ := viable
  refine ⟨.call function inner, continuation ++ [Delimiter.token .rightParen], readable, ?_⟩
  rw [List.cons_append, List.cons_append, ← List.append_assoc]
  exact Tree.symbols_call called opens spelled rfl

theorem viable_operand_nil : operand.Viable [] :=
  ⟨.integer "0", [.zero], ⟨.integer 0, rfl⟩, rfl⟩

theorem viable_sum_nil : (chain .sum).Viable [] :=
  viable_chain .sum (viable_chain .product (viable_power viable_operand_nil))

theorem viable_more_of_spelled {count : Nat} {earlier : Tree (.arguments (count + 1))}
    {front : List Token} (readable : earlier.Readable)
    (spelled : front.map Token.symbol = earlier.symbols) :
    (arguments (count + 2)).Viable front := by
  have added := viable_last readable spelled Delimiter.kind_token viable_sum_nil
  exact viable_of_append added

theorem viable_more {count : Nat} {front : List Token}
    (viable : (arguments (count + 1)).Viable front) : (arguments (count + 2)).Viable front := by
  obtain ⟨earlier, continuation, readable, spelled⟩ := viable
  exact viable_of_append (viable_more_of_spelled readable spelled)

theorem viable_arguments_nil (function : Builtin) : (arguments function.arity).Viable [] := by
  have one := viable_one viable_sum_nil
  cases function with
  | pow => exact viable_more one
  | sin | cos | tan | sqrt | log | ln | abs => exact one

end Phrase

/-- In front of a failure for syntax the tokens can be completed. -/
theorem Failure.viable {phrase : Phrase} {room index : Nat} {front : List Token}
    {next : Option Token} {error : EvalError} (failure : Failure phrase room index front next error)
    (syntactic : error.cause.IsSyntactic) : phrase.Viable front := by
  induction failure with
  | operand => exact Phrase.viable_operand_nil
  | @opening _ _ name _ function called =>
      have opened : Phrase.operand.Viable ([name] ++ [Delimiter.leftParen.token]) :=
        Phrase.viable_call called rfl (Phrase.viable_arguments_nil function)
      exact Phrase.viable_of_append opened
  | nesting | fault => exact syntactic.elim
  | inside called opens _ induction => exact Phrase.viable_call called opens (induction syntactic)
  | closing called opens yields =>
      have readable := (Tree.readable_and_depth_le yields.evaluated).1
      exact Phrase.viable_call called opens (Phrase.viable_of_spelled readable yields.spelled)
  | comma yields =>
      have readable := (Tree.readable_and_depth_le yields.evaluated).1
      exact Phrase.viable_more_of_spelled readable yields.spelled
  | base _ induction => exact Phrase.viable_power (induction syntactic)
  | exponent yields kind _ induction =>
      have readable := (Tree.readable_and_depth_le yields.evaluated).1
      exact Phrase.viable_exponent readable yields.spelled kind (induction syntactic)
  | first joins _ induction => exact Phrase.viable_chain joins (induction syntactic)
  | right joins yields kind bound _ induction =>
      have readable := (Tree.readable_and_depth_le yields.evaluated).1
      exact Phrase.viable_right joins readable yields.spelled kind bound (induction syntactic)
  | only _ induction => exact Phrase.viable_one (induction syntactic)
  | earlier _ induction => exact Phrase.viable_more (induction syntactic)
  | last yields kind _ induction =>
      have readable := (Tree.readable_and_depth_le yields.evaluated).1
      exact Phrase.viable_last readable yields.spelled kind (induction syntactic)

/-- Tokens that begin like a failure for syntax are no expression. -/
theorem Failure.not_wellFormed {front : List Token} {error : EvalError} (rest : List Token)
    (failure : Failure (.chain .sum) maxNesting 0 front rest.head? error)
    (syntactic : error.cause.IsSyntactic) : ¬WellFormed (front ++ rest) := by
  rintro ⟨tree, readable, spelled⟩
  have evaluated := @Tree.read_of_ends _ tree maxNesting 0 _ [] spelled (Phrase.ends_none _)
  rw [List.append_nil, failure.read rfl] at evaluated
  cases result : tree.eval maxNesting 0 with
  | ok value =>
      rw [result] at evaluated
      cases evaluated
  | error other =>
      rw [result] at evaluated
      obtain rfl := Except.error.inj evaluated
      exact Tree.not_isSyntactic_of_eval readable result syntactic

/-- With the token of a failure for syntax the tokens cannot be completed. -/
theorem Failure.not_viable {front : List Token} {token : Token} {error : EvalError}
    (failure : Failure (.chain .sum) maxNesting 0 front (some token) error)
    (syntactic : error.cause.IsSyntactic) : ¬Viable (front ++ [token]) := by
  rintro ⟨continuation, wellFormed⟩
  rw [List.append_assoc] at wellFormed
  -- What follows the token does not matter, since the failure comes about in sight of it alone.
  exact failure.not_wellFormed (token :: continuation) syntactic wellFormed

theorem viable_iff {tokens : List Token} : Viable tokens ↔ (Phrase.chain .sum).Viable tokens :=
  ⟨fun ⟨continuation, tree, readable, spelled⟩ => ⟨tree, continuation, readable, spelled⟩,
    fun ⟨tree, continuation, readable, spelled⟩ => ⟨continuation, tree, readable, spelled⟩⟩

theorem exists_failure_of_evaluate {tokens : List Token} {error : EvalError}
    (failed : evaluate tokens = .error error) :
    ∃ front rest, tokens = front ++ rest ∧
      Failure (.chain .sum) maxNesting 0 front rest.head? error := by
  rw [evaluate_eq_read] at failed
  cases Phrase.explained_sum maxNesting 0 tokens with
  | @failure front rest other split failure =>
      rw [split, failure.read rfl] at failed
      obtain rfl := Except.error.inj failed
      exact ⟨front, rest, split, failure⟩
  | @value tree front rest found split yields ends =>
      rw [split, yields.read rest (Phrase.ends_last ends),
        Phrase.resume_of_ends (.chain .sum) _ _ found ends] at failed
      cases failed

theorem Failure.evaluate_eq {front rest : List Token} {error : EvalError}
    (failure : Failure (.chain .sum) maxNesting 0 front rest.head? error) :
    evaluate (front ++ rest) = .error error := by
  rw [evaluate_eq_read, failure.read rfl]
  rfl

/-- A syntax error with a text stands at the first token that no expression can go on with, and one
without a text stands behind tokens that an expression can go on from but not stop at. -/
theorem syntax_error_at_end_of_viable_tokens {tokens : List Token} {error : EvalError}
    (failed : evaluate tokens = .error error) :
    ((∃ expected text, error.cause = .unexpected expected (some text)) ∨
        (∃ name, error.cause = .unknownName name) →
      error.position < tokens.length ∧ Viable (tokens.take error.position) ∧
        ¬Viable (tokens.take (error.position + 1))) ∧
    (error.cause = .endOfTokens ∨ (∃ expected, error.cause = .unexpected expected none) →
      error.position = tokens.length ∧ Viable tokens ∧ ¬WellFormed tokens) := by
  obtain ⟨front, rest, rfl, failure⟩ := exists_failure_of_evaluate failed
  constructor
  · intro withText
    obtain ⟨syntactic, text, found⟩ := Cause.isSyntactic_of_text withText
    obtain ⟨position, next⟩ := failure.position_and_found_eq syntactic
    cases rest with
    | nil =>
        rw [found] at next
        cases next
    | cons token later =>
        have split : front ++ token :: later = (front ++ [token]) ++ later := by simp
        have length : (front ++ [token]).length = front.length + 1 := by simp
        rw [Nat.zero_add] at position
        rw [position]
        refine ⟨by simp, ?_, ?_⟩
        · rw [List.take_left]
          exact viable_iff.mpr (failure.viable syntactic)
        · rw [split, ← length, List.take_left]
          exact failure.not_viable syntactic
  · intro withoutText
    obtain ⟨syntactic, found⟩ := Cause.isSyntactic_of_no_text withoutText
    obtain ⟨position, next⟩ := failure.position_and_found_eq syntactic
    have notWellFormed := failure.not_wellFormed rest syntactic
    cases rest with
    | nil =>
        rw [List.append_nil] at notWellFormed ⊢
        exact ⟨position.trans (Nat.zero_add _), viable_iff.mpr (failure.viable syntactic),
          notWellFormed⟩
    | cons token later =>
        rw [found] at next
        cases next

/-- In `1 + )` the sum could go on before the parenthesis, and cannot go on with it. -/
theorem evaluate_sum_with_parenthesis :
    evaluate [⟨.literal .integer, "1", ⟨1, 1⟩⟩, ⟨.operator .plus, "+", ⟨1, 3⟩⟩,
        ⟨.punctuation .rightParen, ")", ⟨1, 5⟩⟩] =
      .error ⟨.unexpected .expression (some ")"), 2⟩ ∧
    Viable [⟨.literal .integer, "1", ⟨1, 1⟩⟩, ⟨.operator .plus, "+", ⟨1, 3⟩⟩] ∧
    ¬Viable [⟨.literal .integer, "1", ⟨1, 1⟩⟩, ⟨.operator .plus, "+", ⟨1, 3⟩⟩,
        ⟨.punctuation .rightParen, ")", ⟨1, 5⟩⟩] := by
  have left : (Tree.single .sum (.single .product (.ofOperand (.integer "1")))).Yields maxNesting 0
      [⟨.literal .integer, "1", ⟨1, 1⟩⟩] (.integer 1) := ⟨rfl, rfl⟩
  have right : Failure (.chain .product) maxNesting 2 []
      (some ⟨.punctuation .rightParen, ")", ⟨1, 5⟩⟩) ⟨.unexpected .expression (some ")"), 2⟩ :=
    .first .product (.base (.operand (.noOperand nofun)))
  have sum : Failure (.chain .sum) maxNesting 0 ([_] ++ ⟨.operator .plus, "+", ⟨1, 3⟩⟩ :: []) _ _ :=
    .right .sum left rfl rfl right
  have failed : evaluate [⟨.literal .integer, "1", ⟨1, 1⟩⟩, ⟨.operator .plus, "+", ⟨1, 3⟩⟩,
      ⟨.punctuation .rightParen, ")", ⟨1, 5⟩⟩] =
      .error ⟨.unexpected .expression (some ")"), 2⟩ := by
    rw [evaluate_eq_read]
    exact congrArg (Except.map Prod.fst) (sum.read rfl)
  obtain ⟨_, viable, notViable⟩ :=
    (syntax_error_at_end_of_viable_tokens failed).1 (.inl ⟨_, _, rfl⟩)
  exact ⟨failed, viable, notViable⟩

end Calculator
