import Calculator.Calculation
import Calculator.Proofs.Expression.Viability
import Calculator.Proofs.Source.Layout

/-!
# What errors point at

An error stands at a token that explains it, together with the tokens next to it: faults at a
literal, a sign or a name that can have them, other errors at the token that they quote.  Only the
errors about missing tokens stand behind the last one.
-/

namespace Calculator

/-- A token is the name of a function. -/
def Token.Names (token : Token) (function : Builtin) : Prop :=
  token.kind = .literal .identifier ∧ token.text = function.name

/-- A fault can come from the operation of a token. -/
def Fault.ComesFrom (token : Token) : Fault → Prop
  | moduloByZero => token.kind = .operator .modulo
  | divisionByZero =>
    token.kind = .operator .divide ∨ token.kind = .operator .power ∨ token.Names .pow
  | overflow =>
    token.kind = .literal .integer ∨ token.kind = .operator .plus ∨
      token.kind = .operator .minus ∨ token.kind = .operator .multiply ∨
      token.kind = .operator .power ∨ token.Names .abs ∨ token.Names .pow
  | domain function => token.Names function ∨ token.kind = .operator .power ∧ function = .pow

/-- The token with a given index explains a cause, together with the tokens next to it. -/
def Cause.ExplainedAt (tokens : List Token) (index : Nat) : Cause → Prop
  | fault reason => ∃ token ∈ tokens[index]?, reason.ComesFrom token
  | unknownName name =>
    ∃ token ∈ tokens[index]?, token.kind = .literal .identifier ∧ token.text = name ∧
      ∀ function : Builtin, function.name ≠ name
  | nestingTooDeep =>
    ∃ name ∈ tokens[index]?, ∃ opening ∈ tokens[index + 1]?,
      (∃ function, name.Names function) ∧ opening.kind = Delimiter.kind .leftParen
  | unexpected expected (some found) =>
    ∃ token ∈ tokens[index]?, token.text = found ∧
      (expected = .delimiter .leftParen →
        ∃ earlier, index = earlier + 1 ∧
          ∃ name ∈ tokens[earlier]?, ∃ function, name.Names function)
  | unexpected _ none | endOfTokens => False

/-- The tokens ran out. -/
def Cause.IsEnd (cause : Cause) : Prop :=
  cause = .endOfTokens ∨ ∃ expected, cause = .unexpected expected none

/-- An error stands at a token that explains it.  The first of the tokens has the given index. -/
def EvalError.PointsInto (error : EvalError) (tokens : List Token) (index : Nat) : Prop :=
  ∃ offset, error.position = index + offset ∧ error.cause.ExplainedAt tokens offset

/-- A cause comes about at a token, together with the tokens before it and behind it. -/
inductive Cause.StemsFrom : (before : List Token) → Token → (after : List Token) → Cause → Prop
  /-- No operand begins with the token. -/
  | operand {before after : List Token} {token : Token} {cause : Cause}
    (refused : Refused (some token) cause) : StemsFrom before token after cause
  /-- The operation of a sign has no result. -/
  | sign {before after : List Token} {token : Token} {operator : Operator} {left right : Value}
    {reason : Fault} (kind : token.kind = .operator operator)
    (failed : operator.apply left right = .error reason) :
    StemsFrom before token after (.fault reason)
  /-- The function of a name has no result. -/
  | call {before after : List Token} {name : Token} {function : Builtin}
    {arguments : Vector Value function.arity} {reason : Fault} (names : name.Names function)
    (failed : function.call arguments = .error reason) : StemsFrom before name after (.fault reason)
  /-- A call begins where there is no room for one. -/
  | nesting {before after : List Token} {name opening : Token} {function : Builtin}
    (names : name.Names function) (opens : opening.kind = Delimiter.kind .leftParen) :
    StemsFrom before name (opening :: after) .nestingTooDeep
  /-- Another token than a parenthesis stands behind the name of a function. -/
  | opening {before after : List Token} {name token : Token} {function : Builtin}
    (names : name.Names function) :
    StemsFrom (before ++ [name]) token after
      (.unexpected (.delimiter .leftParen) (some token.text))
  /-- Another token stands in the place of a comma or of a closing parenthesis. -/
  | delimiter {before after : List Token} {token : Token} {mark : Delimiter}
    (inner : mark ≠ .leftParen) :
    StemsFrom before token after (.unexpected (.delimiter mark) (some token.text))

/-- An error stands at the token that it stems from.  The first of the tokens has the given
index. -/
def EvalError.StemsFrom (error : EvalError) (tokens : List Token) (index : Nat) : Prop :=
  ∃ before token after, tokens = before ++ token :: after ∧
    error.position = index + before.length ∧ error.cause.StemsFrom before token after

theorem Cause.ExplainedAt.lt {tokens : List Token} {index : Nat} {cause : Cause}
    (explained : cause.ExplainedAt tokens index) : index < tokens.length := by
  have inside {token : Token} (standing : token ∈ tokens[index]?) : index < tokens.length :=
    (List.getElem?_eq_some_iff.mp standing).1
  cases cause with
  | fault | unknownName | nestingTooDeep =>
      obtain ⟨_, standing, _⟩ := explained
      exact inside standing
  | endOfTokens => exact explained.elim
  | unexpected expected found =>
      cases found with
      | none => exact explained.elim
      | some found =>
          obtain ⟨_, standing, _⟩ := explained
          exact inside standing

/-- More tokens before and behind do not change where a cause comes about. -/
theorem Cause.StemsFrom.mono {before after : List Token} {token : Token} {cause : Cause}
    (stems : cause.StemsFrom before token after) (earlier later : List Token) :
    cause.StemsFrom (earlier ++ before) token (after ++ later) := by
  cases stems with
  | operand refused => exact .operand refused
  | sign kind failed => exact .sign kind failed
  | call names failed => exact .call names failed
  | nesting names opens => exact .nesting names opens
  | opening names =>
      rw [← List.append_assoc]
      exact .opening names
  | delimiter inner => exact .delimiter inner

namespace EvalError.StemsFrom

variable {error : EvalError} {front back : List Token} {token : Token} {index : Nat}

theorem append (stems : error.StemsFrom front index) :
    error.StemsFrom (front ++ back) index := by
  obtain ⟨before, token, after, rfl, position, stems⟩ := stems
  exact ⟨before, token, after ++ back, by simp, position, stems.mono [] back⟩

theorem behind (stems : error.StemsFrom back (index + front.length + 1)) :
    error.StemsFrom (front ++ token :: back) index := by
  obtain ⟨before, standing, after, rfl, position, stems⟩ := stems
  refine ⟨front ++ token :: before, standing, after, by simp, ?_, ?_⟩
  · rw [position, index_append]
  · rw [← List.append_nil after, List.append_cons]
    exact stems.mono (front ++ [token]) []

theorem here {cause : Cause} (stems : cause.StemsFrom front token back) :
    StemsFrom ⟨cause, index + front.length⟩ (front ++ token :: back) index :=
  ⟨front, token, back, rfl, rfl, stems⟩

theorem first {cause : Cause} (stems : cause.StemsFrom [] token back) :
    StemsFrom ⟨cause, index⟩ (token :: back) index :=
  ⟨[], token, back, rfl, rfl, stems⟩

end EvalError.StemsFrom

theorem Operator.comesFrom {sign : Operator} {left right : Value} {reason : Fault} {token : Token}
    (failed : sign.apply left right = .error reason) (kind : token.kind = .operator sign) :
    reason.ComesFrom token := by
  have member := Operator.mem_faults failed
  cases sign with
  | plus | minus | multiply | divide | modulo =>
      obtain rfl := List.mem_singleton.mp member
      simp [Fault.ComesFrom, kind]
  | power =>
      simp only [faults, List.mem_cons, List.not_mem_nil, or_false] at member
      rcases member with rfl | rfl | rfl <;> simp [Fault.ComesFrom, kind]

theorem Builtin.comesFrom {function : Builtin} {arguments : Vector Value function.arity}
    {reason : Fault} {token : Token} (failed : function.call arguments = .error reason)
    (names : token.Names function) : reason.ComesFrom token := by
  have member := Builtin.mem_faults failed
  cases function with
  | sin | cos | tan | sqrt | log | ln | abs =>
      obtain rfl := List.mem_singleton.mp member
      simp [Fault.ComesFrom, names]
  | pow =>
      simp only [faults, Operator.faults, List.mem_cons, List.not_mem_nil, or_false] at member
      rcases member with rfl | rfl | rfl <;> simp [Fault.ComesFrom, names]

/-- The token at which a cause comes about explains it. -/
theorem Cause.StemsFrom.explainedAt {before after : List Token} {token : Token} {cause : Cause}
    (stems : cause.StemsFrom before token after) :
    cause.ExplainedAt (before ++ token :: after) before.length := by
  have standing : token ∈ (before ++ token :: after)[before.length]? := by simp
  cases stems with
  | operand refused =>
      cases refused with
      | integer kind unread =>
          rw [eq_overflow_of_integerLiteral unread]
          exact ⟨token, standing, .inl kind⟩
      | float kind unread =>
          rw [eq_unexpected_of_floatLiteral unread]
          exact ⟨token, standing, rfl, nofun⟩
      | name kind unknown =>
          refine ⟨token, standing, kind, rfl, fun function same => ?_⟩
          rw [← same, Builtin.ofName?_name] at unknown
          cases unknown
      | noOperand => exact ⟨token, standing, rfl, nofun⟩
  | sign kind failed => exact ⟨token, standing, Operator.comesFrom failed kind⟩
  | call names failed => exact ⟨token, standing, Builtin.comesFrom failed names⟩
  | @nesting _ after _ opening function names opens =>
      exact ⟨token, standing, opening, by simp, ⟨function, names⟩, opens⟩
  | @opening earlier _ name _ function names =>
      exact ⟨token, standing, rfl, fun _ =>
        ⟨earlier.length, by simp, name, by simp, function, names⟩⟩
  | delimiter inner =>
      exact ⟨token, standing, rfl, fun same => absurd (Expected.delimiter.inj same) inner⟩

theorem EvalError.StemsFrom.pointsInto {error : EvalError} {tokens : List Token} {index : Nat}
    (stems : error.StemsFrom tokens index) : error.PointsInto tokens index := by
  obtain ⟨before, token, after, rfl, position, stems⟩ := stems
  exact ⟨before.length, position, stems.explainedAt⟩

/-- An error in a spelled tree stems from one of its tokens. -/
theorem Tree.stemsFrom_of_eval {phrase : Phrase} {tree : Tree phrase} {room index : Nat}
    {front : List Token} {error : EvalError} (spelled : front.map Token.symbol = tree.symbols)
    (failed : tree.eval room index = .error error) : error.StemsFrom front index := by
  induction tree generalizing room index front with
  | integer text =>
      obtain ⟨token, rfl, kind, rfl⟩ := exists_of_map_symbol_eq_literal spelled
      obtain ⟨cause, unread, rfl⟩ := mapError_eq_error_iff.mp failed
      exact .first (.operand (.integer kind unread))
  | float text =>
      obtain ⟨token, rfl, kind, rfl⟩ := exists_of_map_symbol_eq_literal spelled
      obtain ⟨cause, unread, rfl⟩ := mapError_eq_error_iff.mp failed
      exact .first (.operand (.float kind unread))
  | call function arguments induction =>
      obtain ⟨name, opening, inner, closing, rfl, called, opens, inner_eq, closes⟩ :=
        exists_of_map_symbol_eq_call spelled
      have names : name.Names function := Token.symbol_eq_literal_iff.mp called
      cases room with
      | zero =>
          obtain rfl := Except.error.inj failed
          exact .first (.nesting names opens)
      | succ room =>
          rcases bind_eq_error_iff.mp failed with inside | ⟨values, _, applied⟩
          · have stems : error.StemsFrom (inner ++ [closing]) (index + 2) :=
              (induction inner_eq inside).append
            exact @EvalError.StemsFrom.behind _ [name] _ _ _ stems
          · obtain ⟨reason, fault, rfl⟩ := mapError_eq_error_iff.mp applied
            exact .first (.call names fault)
  | ofOperand operand induction => exact induction spelled failed
  | raise base exponent base_induction exponent_induction =>
      obtain ⟨before, sign, after, rfl, before_eq, length_eq, sign_eq, after_eq⟩ :=
        exists_of_map_symbol_eq spelled
      have kind : sign.kind = .operator .power := Token.symbol_eq_operator_iff.mp sign_eq
      rw [eval, length_eq] at failed
      rcases bind_eq_error_iff.mp failed with first | ⟨left, _, later⟩
      · exact (base_induction before_eq first).append
      rcases bind_eq_error_iff.mp later with second | ⟨right, _, applied⟩
      · exact (exponent_induction after_eq second).behind
      · obtain ⟨reason, fault, rfl⟩ := mapError_eq_error_iff.mp applied
        exact .here (@Cause.StemsFrom.sign _ _ _ .power _ _ _ kind fault)
  | single joins operand induction => exact induction spelled failed
  | join joins left operator bound right left_induction right_induction =>
      obtain ⟨before, sign, after, rfl, before_eq, length_eq, sign_eq, after_eq⟩ :=
        exists_of_map_symbol_eq spelled
      have kind : sign.kind = .operator operator := Token.symbol_eq_operator_iff.mp sign_eq
      rw [eval, length_eq] at failed
      rcases bind_eq_error_iff.mp failed with first | ⟨_, _, later⟩
      · exact (left_induction before_eq first).append
      rcases bind_eq_error_iff.mp later with second | ⟨_, _, applied⟩
      · exact (right_induction after_eq second).behind
      · obtain ⟨reason, fault, rfl⟩ := mapError_eq_error_iff.mp applied
        exact .here (.sign kind fault)
  | one argument induction =>
      rcases bind_eq_error_iff.mp failed with inside | ⟨_, _, returned⟩
      · exact induction spelled inside
      · cases returned
  | more earlier last earlier_induction last_induction =>
      obtain ⟨before, comma, after, rfl, before_eq, length_eq, _, after_eq⟩ :=
        exists_of_map_symbol_eq spelled
      rw [eval, length_eq] at failed
      rcases bind_eq_error_iff.mp failed with first | ⟨_, _, later⟩
      · exact (earlier_induction before_eq first).append
      rcases bind_eq_error_iff.mp later with second | ⟨_, _, returned⟩
      · exact (last_induction after_eq second).behind
      · cases returned

theorem Tree.pointsInto_of_eval {phrase : Phrase} {tree : Tree phrase} {room index : Nat}
    {front : List Token} {error : EvalError} (spelled : front.map Token.symbol = tree.symbols)
    (failed : tree.eval room index = .error error) : error.PointsInto front index :=
  (Tree.stemsFrom_of_eval spelled failed).pointsInto

/-- Unless the tokens ran out, a failure stems from a token in front or from the next one. -/
theorem Failure.stemsFrom {phrase : Phrase} {room index : Nat} {front : List Token}
    {next : Option Token} {error : EvalError} (failure : Failure phrase room index front next error)
    (inside : ¬error.cause.IsEnd) : error.StemsFrom (front ++ next.toList) index := by
  induction failure with
  | @operand _ index next cause refused =>
      cases next with
      | none => cases refused; exact absurd (.inl rfl) inside
      | some token => exact .first (.operand refused)
  | @opening _ index name next function called refused =>
      cases next with
      | none => exact absurd (.inr ⟨_, rfl⟩) inside
      | some token =>
          have names : name.Names function := Token.symbol_eq_literal_iff.mp called
          exact .here (@Cause.StemsFrom.opening [] _ _ _ _ names)
  | nesting called opens =>
      exact .first (.nesting (Token.symbol_eq_literal_iff.mp called) opens)
  | @inside _ _ name opening _ _ _ _ _ _ _ induction =>
      exact @EvalError.StemsFrom.behind _ [name] _ _ _ (induction inside)
  | @closing _ index name opening front next =>
      cases next with
      | none => exact absurd (.inr ⟨_, rfl⟩) inside
      | some token =>
          have position : index + 2 + front.length = index + (name :: opening :: front).length := by
            simp only [List.length_cons]
            omega
          rw [position]
          exact .here (.delimiter nofun)
  | comma =>
      rename_i next _ _ _ _ _
      cases next with
      | none => exact absurd (.inr ⟨_, rfl⟩) inside
      | some token => exact .here (.delimiter nofun)
  | fault spelled _ failed => exact (Tree.stemsFrom_of_eval spelled failed).append
  | base _ induction | first _ _ induction | only _ induction | earlier _ induction =>
      exact induction inside
  -- Below a chain or a list of arguments, the complete parts in front only shift the failure.
  | exponent _ _ _ induction =>
      rw [List.append_assoc, List.cons_append]
      exact (induction inside).behind
  | right _ _ _ _ _ induction =>
      rw [List.append_assoc, List.cons_append]
      exact (induction inside).behind
  | last _ _ _ induction =>
      rw [List.append_assoc, List.cons_append]
      exact (induction inside).behind

theorem stemsFrom_of_evaluate {tokens : List Token} {error : EvalError}
    (failed : evaluate tokens = .error error) (inside : ¬error.cause.IsEnd) :
    error.StemsFrom tokens 0 := by
  obtain ⟨front, rest, rfl, failure⟩ := exists_failure_of_evaluate failed
  have split : front ++ rest = front ++ rest.head?.toList ++ rest.tail := by
    cases rest <;> simp
  rw [split]
  exact (failure.stemsFrom inside).append

/-- An evaluation fails behind the last token if the tokens ran out, and otherwise at a token that
explains the error. -/
theorem explained_of_evaluate {tokens : List Token} {error : EvalError}
    (failed : evaluate tokens = .error error) :
    (error.cause.IsEnd → error.position = tokens.length) ∧
      (¬error.cause.IsEnd → error.cause.ExplainedAt tokens error.position) := by
  constructor
  · intro ended
    obtain ⟨front, rest, rfl, failure⟩ := exists_failure_of_evaluate failed
    obtain ⟨syntactic, noText⟩ := Cause.isSyntactic_of_no_text ended
    obtain ⟨position, found⟩ := failure.position_and_found_eq syntactic
    cases rest with
    | nil => rw [position, Nat.zero_add, List.append_nil]
    | cons token later =>
        rw [noText] at found
        cases found
  · intro inside
    obtain ⟨offset, position, explained⟩ := (stemsFrom_of_evaluate failed inside).pointsInto
    rw [position, Nat.zero_add]
    exact explained

theorem calculate_eq_error_iff {source : String} {error : EvalError} :
    calculate source = .error error ↔ evaluate (tokens source) = .error error := by
  rw [calculate_eq]
  cases evaluate (tokens source) with
  | error other => exact ⟨congrArg _ ∘ Except.error.inj, congrArg _ ∘ Except.error.inj⟩
  | ok value => exact ⟨nofun, nofun⟩

/-- An evaluation fails at an index from 0 to the number of tokens: at this number exactly if the
tokens ran out, and otherwise at a token that explains the error.  So a calculation fails at one of
the tokens of its source, and at the end marker exactly if the tokens in front of it ran out. -/
theorem errors_point_at_explanations :
    (∀ (tokens : List Token) (error : EvalError), evaluate tokens = .error error →
      error.position ≤ tokens.length ∧ (error.position = tokens.length ↔ error.cause.IsEnd) ∧
        (¬error.cause.IsEnd → error.cause.ExplainedAt tokens error.position)) ∧
    ∀ (source : String) (error : EvalError), calculate source = .error error →
      ∃ token, (tokenize source)[error.position]? = some token ∧
        (token.kind = .special .endOfInput ↔ error.cause.IsEnd) := by
  constructor
  · intro tokens error failed
    obtain ⟨ended, explained⟩ := explained_of_evaluate failed
    by_cases ends : error.cause.IsEnd
    · exact ⟨(ended ends).le, iff_of_true (ended ends) ends, fun inside => absurd ends inside⟩
    · have inside := (explained ends).lt
      exact ⟨inside.le, iff_of_false inside.ne ends, explained⟩
  · intro source error failed
    obtain ⟨ended, explained⟩ := explained_of_evaluate (calculate_eq_error_iff.mp failed)
    by_cases ends : error.cause.IsEnd
    · refine ⟨.endMarker (endPosition source), ?_, iff_of_true rfl ends⟩
      rw [ended ends, tokenize]
      simp
    · have inside := (explained ends).lt
      have standing :
          (tokenize source)[error.position]? = some (tokens source)[error.position] := by
        rw [tokenize, List.getElem?_append_left inside, List.getElem?_eq_getElem inside]
      exact ⟨_, standing,
        iff_of_false (kind_ne_endOfInput_of_mem (List.getElem_mem inside)) ends⟩

/-- The empty source has no token to point at but the end marker, and a name alone that is no
function explains that it is unknown. -/
theorem evaluate_unknown_name :
    (evaluate [⟨.literal .identifier, "x", ⟨1, 1⟩⟩] = .error ⟨.unknownName "x", 0⟩ ∧
      (Cause.unknownName "x").ExplainedAt [⟨.literal .identifier, "x", ⟨1, 1⟩⟩] 0) ∧
    calculate "" = .error ⟨.endOfTokens, 0⟩ ∧
      ∃ token, (tokenize "")[0]? = some token ∧ token.kind = .special .endOfInput := by
  have unknown : evaluate [⟨.literal .identifier, "x", ⟨1, 1⟩⟩] = .error ⟨.unknownName "x", 0⟩ :=
    rfl
  have ended : calculate "" = .error ⟨.endOfTokens, 0⟩ := by
    rw [calculate_eq, tokens, String.toList_empty, Segment.segments_nil]
    rfl
  obtain ⟨_, _, explained⟩ := errors_point_at_explanations.1 _ _ unknown
  obtain ⟨token, standing, marker⟩ := errors_point_at_explanations.2 _ _ ended
  exact ⟨⟨unknown, explained nofun⟩, ended, token, standing, marker.mpr (.inl rfl)⟩

end Calculator
