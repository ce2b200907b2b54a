import Calculator.Proofs.Expression.Blame

/-!
# Tails behind tokens

Evaluation looks at one token behind those that it takes in, and only to see whether that token goes
on with what is open.  So another token in its place, as long as no operator does, leaves faults as
they are and changes a syntax error only in what it finds; the same holds of a token where there was
none.
-/

namespace Calculator

/-- Kinds of tokens that stand in no expression. -/
def Kind.IsForeign : Kind → Prop
  | keyword _ | comparison _ | punctuation .semicolon | special _ => True
  | literal _ | operator _ | punctuation .leftParen | punctuation .rightParen
  | punctuation .comma => False

/-- The cause of an error in sight of another token, of a foreign kind, or of no token.  Only a
syntax error depends on it. -/
def Cause.facing (next : Option Token) : Cause → Cause
  | unexpected (.delimiter mark) _ => unexpected (.delimiter mark) (next.map Token.text)
  | endOfTokens | unexpected .expression _ | unknownName _ =>
    match next with
    | none => endOfTokens
    | some token => unexpected .expression (some token.text)
  | fault reason => fault reason
  | nestingTooDeep => nestingTooDeep

theorem Kind.IsForeign.ne_literal {kind : Kind} (foreign : kind.IsForeign) (form : Literal) :
    kind ≠ .literal form := by
  rintro rfl
  exact foreign

theorem Kind.IsForeign.ne_operator {kind : Kind} (foreign : kind.IsForeign) (sign : Operator) :
    kind ≠ .operator sign := by
  rintro rfl
  exact foreign

theorem Kind.IsForeign.ne_delimiter {kind : Kind} (foreign : kind.IsForeign) (mark : Delimiter) :
    kind ≠ mark.kind := by
  rintro rfl
  cases mark <;> exact foreign

theorem Cause.facing_of_not_isSyntactic {cause : Cause} (next : Option Token)
    (semantic : ¬cause.IsSyntactic) : cause.facing next = cause := by
  cases cause with
  | fault | nestingTooDeep => rfl
  | endOfTokens | unexpected | unknownName => exact absurd trivial semantic

theorem Cause.isEnd_of_found_eq_none {cause : Cause} (syntactic : cause.IsSyntactic)
    (noText : cause.found? = none) : cause.IsEnd := by
  cases cause with
  | endOfTokens => exact .inl rfl
  | unexpected expected found =>
      obtain rfl : found = none := noText
      exact .inr ⟨expected, rfl⟩
  | unknownName name => cases noText
  | fault | nestingTooDeep => exact syntactic.elim

/-- At the end of the tokens an operand was awaited or a certain token; a token that stands there is
found instead. -/
theorem Cause.IsEnd.exists_facing_eq {cause : Cause} (ended : cause.IsEnd) (token : Token) :
    ∃ expected, (cause = .unexpected expected none ∨
        cause = .endOfTokens ∧ expected = .expression) ∧
      cause.facing (some token) = .unexpected expected (some token.text) := by
  rcases ended with rfl | ⟨expected, rfl⟩
  · exact ⟨.expression, .inr ⟨rfl, rfl⟩, rfl⟩
  · refine ⟨expected, .inl rfl, ?_⟩
    cases expected <;> rfl

theorem refused_facing {cause : Cause} {other : Option Token}
    (foreign : ∀ token ∈ other, token.kind.IsForeign)
    (awaited : ∀ mark found, cause ≠ .unexpected (.delimiter mark) found)
    (syntactic : cause.IsSyntactic) : Refused other (cause.facing other) := by
  have refused : Refused other (Cause.endOfTokens.facing other) := by
    cases other with
    | none => exact .noToken
    | some token => exact .noOperand (foreign token rfl).ne_literal
  cases cause with
  | endOfTokens | unknownName => exact refused
  | unexpected expected found =>
      cases expected with
      | delimiter mark => exact absurd rfl (awaited mark found)
      | expression => exact refused
  | fault | nestingTooDeep => exact syntactic.elim

theorem Refused.isSyntactic {next : Option Token} {cause : Cause} (refused : Refused next cause)
    (readable : ∀ token ∈ next, token.kind = .literal .integer →
      ∃ value, integerLiteral token.text = .ok value) : cause.IsSyntactic := by
  cases refused with
  | integer kind unread =>
      obtain ⟨value, read⟩ := readable _ rfl kind
      cases read.symm.trans unread
  | float kind unread =>
      rw [eq_unexpected_of_floatLiteral unread]
      trivial
  | noToken | name | noOperand => trivial

theorem Refused.not_delimiter {next : Option Token} {cause : Cause} (refused : Refused next cause)
    (mark : Delimiter) (found : Option String) : cause ≠ .unexpected (.delimiter mark) found := by
  cases refused with
  | integer kind unread =>
      rw [eq_overflow_of_integerLiteral unread]
      nofun
  | float kind unread =>
      rw [eq_unexpected_of_floatLiteral unread]
      nofun
  | noToken | name | noOperand => nofun

/-- A failure comes about in sight of another token too, unless that is an operator or one that the
failure was waiting for. -/
theorem Failure.facing {phrase : Phrase} {room index : Nat} {front : List Token}
    {next other : Option Token} {error : EvalError}
    (failure : Failure phrase room index front next error)
    (readable : ∀ token ∈ next, token.kind = .literal .integer →
      ∃ value, integerLiteral token.text = .ok value)
    (noOperator : ∀ token ∈ other, ∀ sign, token.kind ≠ .operator sign)
    (foreign : error.cause.IsSyntactic → ∀ token ∈ other, token.kind.IsForeign) :
    Failure phrase room index front other ⟨error.cause.facing other, error.position⟩ := by
  have ends (phrase : Phrase) : phrase.Ends (other.map Token.symbol) := by
    cases other with
    | none => exact phrase.ends_none
    | some token => exact @Phrase.ends_of_no_operator phrase [token] noOperator
  have refused {mark : Delimiter}
      (foreign : ∀ token ∈ other, token.kind.IsForeign) :
      ∀ token ∈ other, token.kind ≠ mark.kind :=
    fun token standing => (foreign token standing).ne_delimiter mark
  induction failure with
  | operand unable =>
      have syntactic := unable.isSyntactic readable
      exact .operand (refused_facing (foreign syntactic) unable.not_delimiter syntactic)
  | opening called _ => exact .opening called (refused (foreign trivial))
  | nesting called opens => exact .nesting called opens
  | inside called opens _ induction => exact .inside called opens (induction readable foreign)
  | closing called opens yields _ _ =>
      exact .closing called opens yields (ends _) (refused (foreign trivial))
  | comma yields _ _ => exact .comma yields (ends _) (refused (foreign trivial))
  | fault spelled _ failed => exact .fault spelled (ends _) failed
  | base _ induction => exact .base (induction readable foreign)
  | exponent yields kind _ induction => exact .exponent yields kind (induction readable foreign)
  | first joins _ induction => exact .first joins (induction readable foreign)
  | right joins yields kind bound _ induction =>
      exact .right joins yields kind bound (induction readable foreign)
  | only _ induction => exact .only (induction readable foreign)
  | earlier _ induction => exact .earlier (induction readable foreign)
  | last yields kind _ induction => exact .last yields kind (induction readable foreign)

/-- An error stands behind the last token exactly if the tokens ran out. -/
theorem position_eq_length_iff {tokens : List Token} {error : EvalError}
    (failed : evaluate tokens = .error error) :
    error.position = tokens.length ↔ error.cause.IsEnd := by
  obtain ⟨ended, explained⟩ := explained_of_evaluate failed
  refine ⟨fun behind => by_contra fun inside => ?_, ended⟩
  exact (explained inside).lt.ne behind

section Tails

variable {tokens : List Token} {next : Token}

theorem evaluate_append_of_ok {value : Value} (result : evaluate tokens = .ok value)
    (noOperator : ∀ sign, next.kind ≠ .operator sign) (later : List Token) :
    evaluate (tokens ++ next :: later) = .ok value := by
  obtain ⟨tree, tail, begins⟩ := exists_begins_of_evaluate result
  rw [begins.evaluate_eq] at result
  obtain ⟨front, rfl, spelled, ended⟩ := begins
  have begins : tree.Begins (front ++ tail ++ next :: later) (tail ++ next :: later) := by
    refine ⟨front, List.append_assoc .., spelled, ?_⟩
    cases tail with
    | nil =>
        intro token standing
        obtain rfl := Option.some.inj standing
        exact noOperator
    | cons => exact ended
  rw [begins.evaluate_eq, result]

theorem evaluate_append_of_error {error : EvalError} (failed : evaluate tokens = .error error)
    (inside : ¬error.cause.IsEnd) (noOperator : ∀ sign, next.kind ≠ .operator sign)
    (later : List Token) : evaluate (tokens ++ next :: later) = .error error := by
  obtain ⟨front, rest, rfl, failure⟩ := exists_failure_of_evaluate failed
  cases rest with
  | cons token rest =>
      rw [List.append_assoc]
      exact @Failure.evaluate_eq front (token :: rest ++ next :: later) _ failure
  | nil =>
      have semantic : ¬error.cause.IsSyntactic := fun syntactic =>
        inside (Cause.isEnd_of_found_eq_none syntactic (failure.position_and_found_eq syntactic).2)
      have here : ∀ token ∈ some next, ∀ sign, token.kind ≠ .operator sign := by
        rintro _ ⟨⟩
        exact noOperator
      have facing := failure.facing nofun here fun syntactic => absurd syntactic semantic
      rw [Cause.facing_of_not_isSyntactic _ semantic] at facing
      rw [List.append_nil]
      exact @Failure.evaluate_eq front (next :: later) _ facing

theorem evaluate_append_of_end {error : EvalError} (failed : evaluate tokens = .error error)
    (ended : error.cause.IsEnd) (foreign : next.kind.IsForeign) (later : List Token) :
    evaluate (tokens ++ next :: later) =
      .error ⟨error.cause.facing (some next), error.position⟩ := by
  obtain ⟨front, rest, rfl, failure⟩ := exists_failure_of_evaluate failed
  obtain ⟨syntactic, noText⟩ := Cause.isSyntactic_of_no_text ended
  cases rest with
  | cons token rest =>
      cases noText.symm.trans (failure.position_and_found_eq syntactic).2
  | nil =>
      have here : ∀ token ∈ some next, token.kind.IsForeign := by
        rintro _ ⟨⟩
        exact foreign
      have facing := failure.facing nofun
        (fun token standing => (here token standing).ne_operator) fun _ => here
      rw [List.append_nil]
      exact @Failure.evaluate_eq front (next :: later) _ facing

end Tails

/-- A tail that does not begin with an operator changes nothing unless the tokens ran out.  If they
did and the tail begins with a token that stands in no expression, this token is found at the same
position, in place of the same delimiter or of an operand. -/
theorem evaluate_append_of_no_operator (tokens : List Token) (next : Token) (later : List Token)
    (noOperator : ∀ sign, next.kind ≠ .operator sign) :
    ((∀ cause, evaluate tokens ≠ .error ⟨cause, tokens.length⟩) →
      evaluate (tokens ++ next :: later) = evaluate tokens) ∧
    ∀ cause, evaluate tokens = .error ⟨cause, tokens.length⟩ → next.kind.IsForeign →
      ∃ expected, (cause = .unexpected expected none ∨
          cause = .endOfTokens ∧ expected = .expression) ∧
        evaluate (tokens ++ next :: later) =
          .error ⟨.unexpected expected (some next.text), tokens.length⟩ := by
  constructor
  · intro inside
    cases result : evaluate tokens with
    | ok value => exact evaluate_append_of_ok result noOperator later
    | error error =>
        have notEnded : ¬error.cause.IsEnd := fun ended => by
          refine inside error.cause ?_
          rw [← (position_eq_length_iff result).mpr ended, result]
        exact evaluate_append_of_error result notEnded noOperator later
  · intro cause failed foreign
    have ended : cause.IsEnd := (position_eq_length_iff failed).mp rfl
    obtain ⟨expected, awaited, facing⟩ := ended.exists_facing_eq next
    refine ⟨expected, awaited, ?_⟩
    rw [evaluate_append_of_end failed ended foreign, facing]

/-- A semicolon behind `0` changes nothing, and behind `sin(0` it is found instead of the
parenthesis that is missing. -/
theorem evaluate_call_in_front_of_semicolon :
    (∀ sign, (⟨.punctuation .semicolon, ";", ⟨1, 6⟩⟩ : Token).kind ≠ .operator sign) ∧
    evaluate [.zero, ⟨.punctuation .semicolon, ";", ⟨1, 6⟩⟩] = evaluate [.zero] ∧
    evaluate [⟨.literal .identifier, "sin", ⟨1, 1⟩⟩, ⟨.punctuation .leftParen, "(", ⟨1, 4⟩⟩,
        .zero] = .error ⟨.unexpected (.delimiter .rightParen) none, 3⟩ ∧
    evaluate [⟨.literal .identifier, "sin", ⟨1, 1⟩⟩, ⟨.punctuation .leftParen, "(", ⟨1, 4⟩⟩,
        .zero, ⟨.punctuation .semicolon, ";", ⟨1, 6⟩⟩] =
      .error ⟨.unexpected (.delimiter .rightParen) (some ";"), 3⟩ := by
  have noOperator (sign : Operator) :
      (⟨.punctuation .semicolon, ";", ⟨1, 6⟩⟩ : Token).kind ≠ .operator sign := nofun
  have begins : Tree.Begins (.single .sum (.single .product (.ofOperand (.integer "0"))))
      [.zero] [] := ⟨[.zero], rfl, rfl, nofun⟩
  have zero : evaluate [.zero] = .ok (.integer 0) := begins.evaluate_eq
  have argument : (Tree.one (.single .sum (.single .product (.ofOperand (.integer "0"))))).Yields
      199 2 [.zero] #v[.integer 0] := ⟨rfl, rfl⟩
  have open_call : Failure (.chain .sum) maxNesting 0
      [⟨.literal .identifier, "sin", ⟨1, 1⟩⟩, ⟨.punctuation .leftParen, "(", ⟨1, 4⟩⟩, .zero] none
      ⟨.unexpected (.delimiter .rightParen) none, 3⟩ :=
    .first .sum (.first .product (.base (@Failure.closing 199 0 _ _ [.zero] none .sin _ _ rfl rfl
      argument (Phrase.ends_none _) nofun)))
  have failed := @Failure.evaluate_eq _ [] _ open_call
  obtain ⟨expected, awaited, found⟩ :=
    (evaluate_append_of_no_operator _ _ [] noOperator).2 _ failed trivial
  obtain ⟨rfl⟩ : expected = .delimiter .rightParen := by
    rcases awaited with same | ⟨same, _⟩
    · exact (Cause.unexpected.inj same).1.symm
    · cases same
  refine ⟨noOperator, (evaluate_append_of_no_operator [.zero] _ [] noOperator).1 ?_, failed, found⟩
  intro cause failed
  cases zero.symm.trans failed

end Calculator
