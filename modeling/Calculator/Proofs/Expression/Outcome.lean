import Calculator.Proofs.Expression.Spelling
import Calculator.Proofs.Expression.Unambiguity

/-!
# Outcomes of reading

Reading has an outcome for every list of tokens: either a tree that the tokens at the front spell
and that has a value, or a failure.  A failure is described by the complete trees before it and by
the next token, and the same failure comes about wherever this description fits.
-/

namespace Calculator

/-- Tokens spell a tree, and the tree has a value. -/
structure Tree.Yields {phrase : Phrase} (tree : Tree phrase) (room index : Nat)
    (front : List Token) (value : phrase.Meaning) : Prop where
  /-- The tokens are those of the tree. -/
  spelled : front.map Token.symbol = tree.symbols
  /-- No part of the tree fails. -/
  evaluated : tree.eval room index = .ok value

/-- Why no operand begins with a token. -/
inductive Refused : Option Token → Cause → Prop
  | noToken : Refused none .endOfTokens
  | integer {token : Token} {cause : Cause} (kind : token.kind = .literal .integer)
    (unread : integerLiteral token.text = .error cause) : Refused (some token) cause
  | float {token : Token} {cause : Cause} (kind : token.kind = .literal .float)
    (unread : floatLiteral token.text = .error cause) : Refused (some token) cause
  | name {token : Token} (kind : token.kind = .literal .identifier)
    (unknown : Builtin.ofName? token.text = none) :
    Refused (some token) (.unknownName token.text)
  | noOperand {token : Token} (kind : ∀ form, token.kind ≠ .literal form) :
    Refused (some token) (.unexpected .expression (some token.text))

/-- Reading a phrase from an index on fails with an error after the tokens in front, in sight of
the next token. -/
inductive Failure : (phrase : Phrase) → (room index : Nat) → (front : List Token) →
    (next : Option Token) → EvalError → Prop
  /-- No operand begins with the next token. -/
  | operand {room index : Nat} {next : Option Token} {cause : Cause}
    (refused : Refused next cause) : Failure .operand room index [] next ⟨cause, index⟩
  /-- No parenthesis follows the name of a function. -/
  | opening {room index : Nat} {name : Token} {next : Option Token} {function : Builtin}
    (called : name.symbol = .literal .identifier function.name)
    (refused : ∀ token ∈ next, token.kind ≠ Delimiter.kind .leftParen) :
    Failure .operand room index [name] next
      ⟨.unexpected (.delimiter .leftParen) (next.map Token.text), index + 1⟩
  /-- There is no room for a call. -/
  | nesting {index : Nat} {name opening : Token} {next : Option Token} {function : Builtin}
    (called : name.symbol = .literal .identifier function.name)
    (opens : opening.kind = Delimiter.kind .leftParen) :
    Failure .operand 0 index [name, opening] next ⟨.nestingTooDeep, index⟩
  /-- An argument of a call fails. -/
  | inside {room index : Nat} {name opening : Token} {front : List Token} {next : Option Token}
    {error : EvalError} {function : Builtin}
    (called : name.symbol = .literal .identifier function.name)
    (opens : opening.kind = Delimiter.kind .leftParen)
    (failure : Failure (.arguments function.arity) room (index + 2) front next error) :
    Failure .operand (room + 1) index (name :: opening :: front) next error
  /-- No parenthesis follows the arguments of a call. -/
  | closing {room index : Nat} {name opening : Token} {front : List Token} {next : Option Token}
    {function : Builtin} {arguments : Tree (.arguments function.arity)}
    {values : Vector Value function.arity}
    (called : name.symbol = .literal .identifier function.name)
    (opens : opening.kind = Delimiter.kind .leftParen)
    (yields : arguments.Yields room (index + 2) front values)
    (ends : (Phrase.arguments function.arity).Ends (next.map Token.symbol))
    (refused : ∀ token ∈ next, token.kind ≠ Delimiter.kind .rightParen) :
    Failure .operand (room + 1) index (name :: opening :: front) next
      ⟨.unexpected (.delimiter .rightParen) (next.map Token.text), index + 2 + front.length⟩
  /-- No comma follows an argument that is not the last. -/
  | comma {room index count : Nat} {front : List Token} {next : Option Token}
    {earlier : Tree (.arguments (count + 1))} {values : Vector Value (count + 1)}
    (yields : earlier.Yields room index front values)
    (ends : (Phrase.arguments (count + 1)).Ends (next.map Token.symbol))
    (refused : ∀ token ∈ next, token.kind ≠ Delimiter.kind .comma) :
    Failure (.arguments (count + 2)) room index front next
      ⟨.unexpected (.delimiter .comma) (next.map Token.text), index + front.length⟩
  /-- A tree is complete but has no value. -/
  | fault {phrase : Phrase} {room index position : Nat} {front : List Token}
    {next : Option Token} {tree : Tree phrase} {reason : Fault}
    (spelled : front.map Token.symbol = tree.symbols)
    (ends : phrase.last.Ends (next.map Token.symbol))
    (failed : tree.eval room index = .error ⟨.fault reason, position⟩) :
    Failure phrase room index front next ⟨.fault reason, position⟩
  | base {room index : Nat} {front : List Token} {next : Option Token} {error : EvalError}
    (failure : Failure .operand room index front next error) :
    Failure (.chain .power) room index front next error
  | exponent {room index : Nat} {before front : List Token} {sign : Token} {next : Option Token}
    {error : EvalError} {base : Tree .operand} {value : Value}
    (yields : base.Yields room index before value) (kind : sign.kind = .operator .power)
    (failure : Failure (.chain .power) room (index + before.length + 1) front next error) :
    Failure (.chain .power) room index (before ++ sign :: front) next error
  | first {whole part : Level} (joins : whole.Joins part) {room index : Nat} {front : List Token}
    {next : Option Token} {error : EvalError}
    (failure : Failure (.chain part) room index front next error) :
    Failure (.chain whole) room index front next error
  | right {whole part : Level} (joins : whole.Joins part) {room index : Nat}
    {before front : List Token} {token : Token} {next : Option Token} {error : EvalError}
    {left : Tree (.chain whole)} {value : Value} {sign : Operator}
    (yields : left.Yields room index before value) (kind : token.kind = .operator sign)
    (bound : sign.level = whole)
    (failure : Failure (.chain part) room (index + before.length + 1) front next error) :
    Failure (.chain whole) room index (before ++ token :: front) next error
  | only {room index : Nat} {front : List Token} {next : Option Token} {error : EvalError}
    (failure : Failure (.chain .sum) room index front next error) :
    Failure (.arguments 1) room index front next error
  | earlier {room index count : Nat} {front : List Token} {next : Option Token} {error : EvalError}
    (failure : Failure (.arguments (count + 1)) room index front next error) :
    Failure (.arguments (count + 2)) room index front next error
  | last {room index count : Nat} {before front : List Token} {comma : Token}
    {next : Option Token} {error : EvalError} {earlier : Tree (.arguments (count + 1))}
    {values : Vector Value (count + 1)} (yields : earlier.Yields room index before values)
    (kind : comma.kind = Delimiter.kind .comma)
    (failure : Failure (.chain .sum) room (index + before.length + 1) front next error) :
    Failure (.arguments (count + 2)) room index (before ++ comma :: front) next error

theorem Tree.Yields.read {phrase : Phrase} {tree : Tree phrase} {room index : Nat}
    {front : List Token} {value : phrase.Meaning} (yields : tree.Yields room index front value)
    (rest : List Token) (ends : phrase.last.Ends (rest.head?.map Token.symbol)) :
    phrase.read room ⟨index, front ++ rest⟩ =
      phrase.resume room value ⟨index + front.length, rest⟩ := by
  rw [tree.reads room index rest yields.spelled ends, yields.evaluated]
  rfl

namespace Tree.Yields

variable {room index : Nat} {before : List Token} {token : Token}

theorem read_exponent {base : Tree .operand} {value : Value}
    (yields : base.Yields room index before value) (kind : token.kind = .operator .power)
    (rest : List Token) :
    (Phrase.chain .power).read room ⟨index, before ++ token :: rest⟩ = (do
      let (exponent, after) ← (Phrase.chain .power).read room ⟨index + before.length + 1, rest⟩
      let power ← (value.pow exponent).mapError (⟨.fault ·, index + before.length⟩)
      return (power, after)) := by
  rw [Phrase.read_power, yields.read _ (Phrase.ends_operand _)]
  dsimp only [bind, Except.bind, Phrase.resume]
  rw [Cursor.operator?_of_kind .power _ _ kind rfl]

theorem read_right {whole part : Level} (joins : whole.Joins part) {left : Tree (.chain whole)}
    {value : Value} {sign : Operator} (yields : left.Yields room index before value)
    (kind : token.kind = .operator sign) (bound : sign.level = whole) (rest : List Token) :
    (Phrase.chain whole).read room ⟨index, before ++ token :: rest⟩ = (do
      let (right, after) ← (Phrase.chain part).read room ⟨index + before.length + 1, rest⟩
      let result ← (sign.apply value right).mapError (⟨.fault ·, index + before.length⟩)
      (Phrase.chain whole).resume room result after) := by
  have ends := Phrase.ends_part_sign joins bound
  rw [← Token.symbol_eq_operator_iff.mpr kind, ← Phrase.last_of_joins joins] at ends
  rw [yields.read (token :: rest) ends,
    Phrase.resume_chain joins _ (Cursor.operator?_of_kind _ _ _ kind bound)]

theorem read_last {count : Nat} {earlier : Tree (.arguments (count + 1))}
    {values : Vector Value (count + 1)} (yields : earlier.Yields room index before values)
    (kind : token.kind = Delimiter.kind .comma) (rest : List Token) :
    (Phrase.arguments (count + 2)).read room ⟨index, before ++ token :: rest⟩ = (do
      let (value, after) ← (Phrase.chain .sum).read room ⟨index + before.length + 1, rest⟩
      return (values.push value, after)) := by
  have ends := Phrase.ends_delimiter (.arguments (count + 1)) .comma
  rw [← Token.symbol_eq_delimiter_iff.mpr kind] at ends
  rw [Phrase.read_arguments_more, yields.read (token :: rest) ends]
  dsimp only [bind, Except.bind, Phrase.resume]
  rw [Cursor.expect_of_kind _ _ kind]

end Tree.Yields

theorem Refused.read {cause : Cause} {rest : List Token} (refused : Refused rest.head? cause)
    (room index : Nat) : Phrase.operand.read room ⟨index, rest⟩ = .error ⟨cause, index⟩ := by
  cases rest with
  | nil => cases refused; rfl
  | cons token rest =>
      simp only [Phrase.read, readOperand]
      cases refused with
      | integer kind unread => simp only [kind, unread]; rfl
      | float kind unread => simp only [kind, unread]; rfl
      | name kind unknown => simp only [kind, unknown]
      | noOperand kind =>
          split
          · exact absurd ‹_› (kind _)
          · exact absurd ‹_› (kind _)
          · exact absurd ‹_› (kind _)
          · rfl

/-- A failure comes about wherever its description fits. -/
theorem Failure.read {phrase : Phrase} {room index : Nat} {front : List Token}
    {next : Option Token} {error : EvalError} (failure : Failure phrase room index front next error)
    {rest : List Token} (head : rest.head? = next) :
    phrase.read room ⟨index, front ++ rest⟩ = .error error := by
  induction failure with
  | operand refused =>
      subst head
      exact refused.read _ _
  | opening called refused =>
      subst head
      rw [List.singleton_append, Phrase.read_name _ _ _ called, readCall,
        Cursor.expect_of_refused _ refused]
      rfl
  | nesting called opens => exact Phrase.read_call_zero _ _ called opens
  | inside called opens _ induction =>
      rw [List.cons_append, List.cons_append, Phrase.read_call _ _ _ called opens, induction head]
      rfl
  | closing called opens yields ends refused =>
      subst head
      rw [List.cons_append, List.cons_append, Phrase.read_call _ _ _ called opens,
        yields.read _ (Phrase.ends_last ends), Phrase.resume_of_ends _ _ _ _ ends]
      dsimp only [bind, Except.bind]
      rw [Cursor.expect_of_refused _ refused]
  | comma yields ends refused =>
      subst head
      rw [Phrase.read_arguments_more, yields.read _ (Phrase.ends_last ends),
        Phrase.resume_of_ends _ _ _ _ ends]
      dsimp only [bind, Except.bind]
      rw [Cursor.expect_of_refused _ refused]
  | @fault phrase room index position front next tree reason spelled ends failed =>
      subst head
      rw [tree.reads room index rest spelled ends, failed]
      rfl
  | base _ induction =>
      rw [Phrase.read_power, induction head]
      rfl
  | exponent yields kind _ induction =>
      rw [List.append_assoc, List.cons_append, yields.read_exponent kind, induction head]
      rfl
  | first joins _ induction =>
      rw [Phrase.read_chain joins, induction head]
      rfl
  | right joins yields kind bound _ induction =>
      rw [List.append_assoc, List.cons_append, yields.read_right joins kind bound, induction head]
      rfl
  | only _ induction =>
      rw [Phrase.read_arguments_one, induction head]
      rfl
  | earlier _ induction =>
      rw [Phrase.read_arguments_more, induction head]
      rfl
  | last yields kind _ induction =>
      rw [List.append_assoc, List.cons_append, yields.read_last kind, induction head]
      rfl

namespace Tree

theorem symbols_raise {base : Tree .operand} {exponent : Tree (.chain .power)}
    {before after : List Token} {token : Token} (base_eq : before.map Token.symbol = base.symbols)
    (kind : token.kind = .operator .power)
    (exponent_eq : after.map Token.symbol = exponent.symbols) :
    (before ++ token :: after).map Token.symbol = (raise base exponent).symbols := by
  rw [List.map_append, List.map_cons, base_eq, exponent_eq,
    Token.symbol_eq_operator_iff.mpr kind, symbols]

theorem symbols_join {whole part : Level} (joins : whole.Joins part) {left : Tree (.chain whole)}
    {right : Tree (.chain part)} {sign : Operator} (bound : sign.level = whole)
    {before after : List Token} {token : Token} (left_eq : before.map Token.symbol = left.symbols)
    (kind : token.kind = .operator sign) (right_eq : after.map Token.symbol = right.symbols) :
    (before ++ token :: after).map Token.symbol = (join joins left sign bound right).symbols := by
  rw [List.map_append, List.map_cons, left_eq, right_eq,
    Token.symbol_eq_operator_iff.mpr kind, symbols]

theorem symbols_more {count : Nat} {earlier : Tree (.arguments (count + 1))}
    {last : Tree (.chain .sum)} {before after : List Token} {comma : Token}
    (earlier_eq : before.map Token.symbol = earlier.symbols)
    (kind : comma.kind = Delimiter.kind .comma)
    (last_eq : after.map Token.symbol = last.symbols) :
    (before ++ comma :: after).map Token.symbol = (more earlier last).symbols := by
  rw [List.map_append, List.map_cons, earlier_eq, last_eq,
    Token.symbol_eq_delimiter_iff.mpr kind, symbols]

theorem symbols_call {function : Builtin} {arguments : Tree (.arguments function.arity)}
    {name opening closing : Token} {inner : List Token}
    (called : name.symbol = .literal .identifier function.name)
    (opens : opening.kind = Delimiter.kind .leftParen)
    (inner_eq : inner.map Token.symbol = arguments.symbols)
    (closes : closing.kind = Delimiter.kind .rightParen) :
    (name :: opening :: (inner ++ [closing])).map Token.symbol =
      (call function arguments).symbols := by
  rw [List.map_cons, List.map_cons, List.map_append, List.map_singleton, called, inner_eq,
    Token.symbol_eq_delimiter_iff.mpr opens, Token.symbol_eq_delimiter_iff.mpr closes, symbols]
  rfl

namespace Yields

variable {room index : Nat} {before after : List Token} {token : Token}

theorem eval_raise {base : Tree .operand} {exponent : Tree (.chain .power)} {left right : Value}
    (base_yields : base.Yields room index before left)
    (exponent_yields : exponent.Yields room (index + before.length + 1) after right) :
    (raise base exponent).eval room index =
      (left.pow right).mapError (⟨.fault ·, index + before.length⟩) := by
  rw [eval, ← base_yields.spelled, List.length_map, base_yields.evaluated]
  dsimp only [bind, Except.bind]
  rw [exponent_yields.evaluated]

theorem eval_join {whole part : Level} (joins : whole.Joins part) {left : Tree (.chain whole)}
    {right : Tree (.chain part)} {sign : Operator} (bound : sign.level = whole)
    {value operand : Value} (left_yields : left.Yields room index before value)
    (right_yields : right.Yields room (index + before.length + 1) after operand) :
    (join joins left sign bound right).eval room index =
      (sign.apply value operand).mapError (⟨.fault ·, index + before.length⟩) := by
  rw [eval, ← left_yields.spelled, List.length_map, left_yields.evaluated]
  dsimp only [bind, Except.bind]
  rw [right_yields.evaluated]

theorem eval_call {function : Builtin} {arguments : Tree (.arguments function.arity)}
    {values : Vector Value function.arity} {inner : List Token}
    (yields : arguments.Yields room (index + 2) inner values) :
    (call function arguments).eval (room + 1) index =
      (function.call values).mapError (⟨.fault ·, index⟩) := by
  rw [eval, yields.evaluated]
  rfl

theorem more {count : Nat} {earlier : Tree (.arguments (count + 1))} {last : Tree (.chain .sum)}
    {values : Vector Value (count + 1)} {value : Value}
    (earlier_yields : earlier.Yields room index before values)
    (kind : token.kind = Delimiter.kind .comma)
    (last_yields : last.Yields room (index + before.length + 1) after value) :
    (Tree.more earlier last).Yields room index (before ++ token :: after) (values.push value) where
  spelled := symbols_more earlier_yields.spelled kind last_yields.spelled
  evaluated := by
    rw [eval, ← earlier_yields.spelled, List.length_map, earlier_yields.evaluated]
    dsimp only [bind, Except.bind]
    rw [last_yields.evaluated]
    rfl

end Yields

end Tree

/-! ## Every outcome -/

/-- What comes of tokens from an index on: the value of a tree behind which the phrase ends, or a
failure. -/
inductive Outcome (phrase : Phrase) (room index : Nat) (tokens : List Token) : Prop
  | value {tree : Tree phrase} {front rest : List Token} {value : phrase.Meaning}
    (split : tokens = front ++ rest) (yields : tree.Yields room index front value)
    (ends : phrase.Ends (rest.head?.map Token.symbol))
  | failure {front rest : List Token} {error : EvalError} (split : tokens = front ++ rest)
    (failure : Failure phrase room index front rest.head? error)

/-- All tokens have an outcome. -/
def Phrase.Explained (phrase : Phrase) (room : Nat) : Prop :=
  ∀ (index : Nat) (tokens : List Token), Outcome phrase room index tokens

namespace Phrase

theorem power_comes_or_ends (rest : List Token) :
    (∃ token later, rest = token :: later ∧ token.kind = .operator .power) ∨
      (chain .power).Ends (rest.head?.map Token.symbol) := by
  cases rest with
  | nil => exact .inr (ends_none _)
  | cons token later =>
      by_cases kind : token.kind = .operator .power
      · exact .inl ⟨token, later, rfl, kind⟩
      · refine .inr fun sign same continues => kind ?_
        obtain rfl : sign = .power := by cases sign <;> trivial
        exact Token.symbol_eq_operator_iff.mp (Option.some.inj same)

theorem sign_comes_or_ends {whole part : Level} (joins : whole.Joins part) {rest : List Token}
    (ends : (chain part).Ends (rest.head?.map Token.symbol)) :
    (∃ token sign later, rest = token :: later ∧ token.kind = .operator sign ∧
      sign.level = whole) ∨ (chain whole).Ends (rest.head?.map Token.symbol) := by
  cases rest with
  | nil => exact .inr (ends_none _)
  | cons token later =>
      by_cases comes : ∃ sign, token.kind = .operator sign ∧ sign.level = whole
      · obtain ⟨sign, kind, bound⟩ := comes
        exact .inl ⟨token, sign, later, rfl, kind, bound⟩
      · refine .inr fun sign same continues => ends sign same ?_
        have kind : token.kind = .operator sign :=
          Token.symbol_eq_operator_iff.mp (Option.some.inj same)
        have other : sign.level ≠ whole := fun bound => comes ⟨sign, kind, bound⟩
        cases joins <;> cases sign <;> simp_all [Continues, Operator.level]

theorem explained_power {room : Nat} (operands : operand.Explained room) :
    (chain .power).Explained room := by
  intro index tokens
  -- The exponent is a power too, of fewer tokens.
  generalize size : tokens.length = length
  induction length using Nat.strongRecOn generalizing index tokens with
  | ind length induction =>
      cases operands index tokens with
      | failure split failure => exact .failure split (.base failure)
      | @value base front rest left split yields _ =>
          rcases power_comes_or_ends rest with ⟨token, later, rfl, kind⟩ | ends
          · have shorter : later.length < length := by
              rw [← size, split, List.length_append, List.length_cons]
              omega
            cases induction _ shorter (index + front.length + 1) later rfl with
            | failure later_split failure =>
                subst later_split
                exact .failure (by simp [split]) (.exponent yields kind failure)
            | @value exponent after rest right later_split exponent_yields ends =>
                subst later_split
                have whole : tokens = (front ++ token :: after) ++ rest := by simp [split]
                have spelled := Tree.symbols_raise yields.spelled kind exponent_yields.spelled
                have evaluated := yields.eval_raise exponent_yields
                cases applied : left.pow right with
                | error reason =>
                    rw [applied] at evaluated
                    exact .failure whole (.fault spelled ends evaluated)
                | ok power =>
                    rw [applied] at evaluated
                    exact .value whole ⟨spelled, evaluated⟩ ends
          · have power : (Tree.ofOperand base).Yields room index front left :=
              ⟨yields.spelled, yields.evaluated⟩
            exact .value split power ends

/-- A part of a chain has an outcome together with what follows it. -/
theorem outcome_behind {whole part : Level} (joins : whole.Joins part) {room index : Nat}
    (operands : (chain part).Explained room) {left : Tree (.chain whole)} {front rest : List Token}
    {value : Value} (yields : left.Yields room index front value)
    (ends : (chain part).Ends (rest.head?.map Token.symbol)) :
    Outcome (.chain whole) room index (front ++ rest) := by
  -- Each round of the loop moves tokens from the rest to the left part.
  generalize size : rest.length = length
  induction length using Nat.strongRecOn generalizing left front rest value with
  | ind length induction =>
      rcases sign_comes_or_ends joins ends with ⟨token, sign, later, rfl, kind, bound⟩ | ends
      · cases operands (index + front.length + 1) later with
        | failure later_split failure =>
            subst later_split
            exact .failure (by simp) (.right joins yields kind bound failure)
        | @value right after rest operand later_split right_yields right_ends =>
            subst later_split
            have split : front ++ token :: (after ++ rest) = (front ++ token :: after) ++ rest := by
              simp
            have spelled := Tree.symbols_join joins bound yields.spelled kind right_yields.spelled
            have evaluated := yields.eval_join joins bound right_yields
            cases applied : sign.apply value operand with
            | error reason =>
                rw [applied] at evaluated
                rw [← last_of_joins joins] at right_ends
                exact .failure split (.fault spelled right_ends evaluated)
            | ok result =>
                rw [applied] at evaluated
                have shorter : rest.length < length := by
                  rw [← size, List.length_cons, List.length_append]
                  omega
                rw [split]
                exact induction _ shorter ⟨spelled, evaluated⟩ right_ends rfl
      · exact .value rfl yields ends

theorem explained_chain {whole part : Level} (joins : whole.Joins part) {room : Nat}
    (operands : (chain part).Explained room) : (chain whole).Explained room := by
  intro index tokens
  cases operands index tokens with
  | failure split failure => exact .failure split (.first joins failure)
  | @value first front rest value split yields ends =>
      have single : (Tree.single joins first).Yields room index front value :=
        ⟨yields.spelled, yields.evaluated⟩
      rw [split]
      exact outcome_behind joins operands single ends

theorem explained_arguments {room : Nat} (sums : (chain .sum).Explained room) (count : Nat) :
    (arguments (count + 1)).Explained room := by
  induction count with
  | zero =>
      intro index tokens
      cases sums index tokens with
      | failure split failure => exact .failure split (.only failure)
      | @value argument front rest value split yields ends =>
          have one : (Tree.one argument).Yields room index front #v[value] :=
            ⟨yields.spelled, by rw [Tree.eval, yields.evaluated]; rfl⟩
          exact .value split one ends
  | succ count induction =>
      intro index tokens
      cases induction index tokens with
      | failure split failure => exact .failure split (.earlier failure)
      | @value earlier front rest values split yields ends =>
          rcases Delimiter.comma.comes_or_refused rest with ⟨comma, later, rfl, kind⟩ | refused
          · cases sums (index + front.length + 1) later with
            | failure later_split failure =>
                subst later_split
                exact .failure (by simp [split]) (.last yields kind failure)
            | @value last after rest value later_split last_yields last_ends =>
                subst later_split
                have whole : tokens = (front ++ comma :: after) ++ rest := by simp [split]
                exact .value whole (yields.more kind last_yields) last_ends
          · exact .failure split (.comma yields ends refused)

theorem outcome_call {room : Nat} {name : Token} {function : Builtin}
    (inside : ∀ deeper, room = deeper + 1 → (arguments function.arity).Explained deeper)
    (called : name.symbol = .literal .identifier function.name) (index : Nat)
    (rest : List Token) : Outcome .operand room index (name :: rest) := by
  rcases Delimiter.leftParen.comes_or_refused rest with ⟨opening, later, rfl, opens⟩ | refused
  · cases room with
    | zero =>
        have split : name :: opening :: later = [name, opening] ++ later := rfl
        exact .failure split (.nesting called opens)
    | succ room =>
        cases inside room rfl (index + 2) later with
        | failure split failure =>
            subst split
            exact .failure rfl (.inside called opens failure)
        | @value inner front rest values split yields ends =>
            subst split
            rcases Delimiter.rightParen.comes_or_refused rest with
              ⟨closing, rest, rfl, closes⟩ | refused
            · have whole : name :: opening :: (front ++ closing :: rest) =
                  (name :: opening :: (front ++ [closing])) ++ rest := by simp
              have spelled := Tree.symbols_call called opens yields.spelled closes
              have evaluated := yields.eval_call
              cases called : function.call values with
              | error reason =>
                  rw [called] at evaluated
                  exact .failure whole (.fault spelled (ends_operand _) evaluated)
              | ok value =>
                  rw [called] at evaluated
                  exact .value whole ⟨spelled, evaluated⟩ (ends_operand _)
            · exact .failure rfl (.closing called opens yields ends refused)
  · exact .failure List.singleton_append.symm (.opening called refused)

theorem outcome_of_refused {tokens : List Token} {cause : Cause}
    (refused : Refused tokens.head? cause) (room index : Nat) :
    Outcome .operand room index tokens :=
  .failure (List.nil_append tokens).symm (.operand refused)

/-- Operands have outcomes if the arguments of calls have them with room for one call less. -/
theorem explained_operand {room : Nat}
    (inside : ∀ count deeper, room = deeper + 1 → (arguments (count + 1)).Explained deeper) :
    operand.Explained room := by
  intro index tokens
  cases tokens with
  | nil =>
      have refused : Refused ([] : List Token).head? .endOfTokens := .noToken
      exact outcome_of_refused refused room index
  | cons token rest =>
      have refusal {cause : Cause} (refused : Refused (token :: rest).head? cause) :=
        outcome_of_refused refused room index
      by_cases isLiteral : ∃ form, token.kind = .literal form
      · obtain ⟨form, kind⟩ := isLiteral
        have symbol : token.symbol = .literal form token.text :=
          Token.symbol_eq_literal_iff.mpr ⟨kind, rfl⟩
        cases form with
        | integer =>
            cases read : integerLiteral token.text with
            | error cause => exact refusal (.integer kind read)
            | ok value =>
                have integer : (Tree.integer token.text).Yields room index [token] value :=
                  ⟨congrArg (fun symbol => [symbol]) symbol, by rw [Tree.eval, read]; rfl⟩
                exact .value List.singleton_append.symm integer (ends_operand _)
        | float =>
            cases read : floatLiteral token.text with
            | error cause => exact refusal (.float kind read)
            | ok value =>
                have float : (Tree.float token.text).Yields room index [token] value :=
                  ⟨congrArg (fun symbol => [symbol]) symbol, by rw [Tree.eval, read]; rfl⟩
                exact .value List.singleton_append.symm float (ends_operand _)
        | identifier =>
            cases known : Builtin.ofName? token.text with
            | none => exact refusal (.name kind known)
            | some function =>
                rw [← Builtin.name_eq_of_ofName? known] at symbol
                refine outcome_call (fun deeper same => ?_) symbol index rest
                cases function <;> exact inside _ deeper same
      · exact refusal (.noOperand fun form kind => isLiteral ⟨form, kind⟩)

theorem explained_sum_of_operand {room : Nat} (operands : operand.Explained room) :
    (chain .sum).Explained room :=
  explained_chain .sum (explained_chain .product (explained_power operands))

/-- Whatever its tokens, an expression has an outcome. -/
theorem explained_sum (room : Nat) : (chain .sum).Explained room := by
  induction room with
  | zero => exact explained_sum_of_operand (explained_operand nofun)
  | succ room induction =>
      refine explained_sum_of_operand (explained_operand fun count deeper same => ?_)
      obtain rfl := Nat.succ.inj same
      exact explained_arguments induction count

end Phrase

end Calculator
