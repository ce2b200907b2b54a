import Calculator.Proofs.Expression.Blame

/-!
# The nesting limit

In front of a token, the calls that are open there are the opening parentheses without a closing
one.  A complete phrase leaves none open and is nowhere nested deeper than its tree, so the limit is
reached exactly at the name of a call that would be one too many, whatever stands beside the open
calls.
-/

namespace Calculator

/-- The number of opening parentheses less the number of closing ones. -/
def parenExcess (tokens : List Token) : Int :=
  tokens.countP (·.kind = Delimiter.kind .leftParen) -
    tokens.countP (·.kind = Delimiter.kind .rightParen)

/-- Tokens leave a number of parentheses open, and on the way never more than a limit. -/
structure Nests (tokens : List Token) (opened limit : Int) : Prop where
  /-- So many more parentheses are opened than closed. -/
  excess : parenExcess tokens = opened
  /-- No prefix has more of them open than the limit. -/
  bounded : ∀ front, front <+: tokens → parenExcess front ≤ limit

/-- Two tokens begin a call: the name of a function and an opening parenthesis. -/
def OpensCall (name opening : Token) : Prop :=
  (∃ function, name.Names function) ∧ opening.kind = Delimiter.kind .leftParen

/-- Tokens end in a call in front of which as many others are open as may be. -/
def EndsInCall (tokens : List Token) (room offset : Nat) : Prop :=
  ∃ before name opening, tokens = before ++ [name, opening] ∧ before.length = offset ∧
    OpensCall name opening ∧ Nests before room room

theorem parenExcess_append (left right : List Token) :
    parenExcess (left ++ right) = parenExcess left + parenExcess right := by
  simp only [parenExcess, List.countP_append]
  omega

theorem parenExcess_opening {token : Token} (kind : token.kind = Delimiter.kind .leftParen) :
    parenExcess [token] = 1 := by
  simp [parenExcess, kind, Delimiter.kind]

theorem parenExcess_closing {token : Token} (kind : token.kind = Delimiter.kind .rightParen) :
    parenExcess [token] = -1 := by
  simp [parenExcess, kind, Delimiter.kind]

theorem parenExcess_other {token : Token} {kind : Kind} (same : token.kind = kind)
    (noOpening : kind ≠ Delimiter.kind .leftParen)
    (noClosing : kind ≠ Delimiter.kind .rightParen) : parenExcess [token] = 0 := by
  simp [parenExcess, same, noOpening, noClosing]

theorem parenExcess_literal {token : Token} {form : Literal} (kind : token.kind = .literal form) :
    parenExcess [token] = 0 :=
  parenExcess_other kind nofun nofun

theorem parenExcess_operator {token : Token} {sign : Operator}
    (kind : token.kind = .operator sign) : parenExcess [token] = 0 :=
  parenExcess_other kind nofun nofun

theorem parenExcess_comma {token : Token} (kind : token.kind = Delimiter.kind .comma) :
    parenExcess [token] = 0 :=
  parenExcess_other kind nofun nofun

theorem OpensCall.neutral {name opening : Token} (opens : OpensCall name opening) :
    parenExcess [name] = 0 := by
  obtain ⟨⟨_, kind, _⟩, _⟩ := opens
  exact parenExcess_literal kind

namespace Nests

variable {left right : List Token} {token : Token} {opened further limit : Int}

theorem nil (nonneg : 0 ≤ limit) : Nests [] 0 limit where
  excess := rfl
  bounded front isPrefix := by rwa [List.prefix_nil.mp isPrefix]

theorem single (nonneg : 0 ≤ limit) (atMost : parenExcess [token] ≤ limit) :
    Nests [token] (parenExcess [token]) limit where
  excess := rfl
  bounded front isPrefix := by
    rcases List.prefix_cons_iff.mp isPrefix with rfl | ⟨rest, rfl, later⟩
    · exact nonneg
    · rwa [List.prefix_nil.mp later]

theorem append (first : Nests left opened limit) (second : Nests right further (limit - opened)) :
    Nests (left ++ right) (opened + further) limit where
  excess := by rw [parenExcess_append, first.excess, second.excess]
  bounded front isPrefix := by
    rcases List.prefix_or_prefix_of_prefix isPrefix (List.prefix_append left right) with
      inFirst | ⟨rest, rfl⟩
    · exact first.bounded front inFirst
    · have inSecond := second.bounded rest ((List.prefix_append_right_inj left).mp isPrefix)
      rw [parenExcess_append, first.excess]
      omega

theorem nonneg (nests : Nests left opened limit) : 0 ≤ limit :=
  nests.bounded [] List.nil_prefix

/-- Between phrases, only those behind count if the others close what they open. -/
theorem between (first : Nests left 0 limit) (neutral : parenExcess [token] = 0)
    (second : Nests right opened limit) : Nests (left ++ token :: right) opened limit := by
  have middle : Nests [token] 0 limit := neutral ▸ single first.nonneg (neutral ▸ first.nonneg)
  have behind : Nests ([token] ++ right) (0 + opened) (limit - 0) := by
    rw [Int.sub_zero]
    exact middle.append (by rwa [Int.sub_zero])
  simpa using first.append behind

theorem inside {name opening : Token} (neutral : parenExcess [name] = 0)
    (opens : opening.kind = Delimiter.kind .leftParen) (inner : Nests right opened limit) :
    Nests (name :: opening :: right) (opened + 1) (limit + 1) := by
  have nonneg := inner.nonneg
  have excess := parenExcess_opening opens
  have parenthesis : Nests [opening] 1 (limit + 1) := excess ▸ single (by omega) (by omega)
  have behind : Nests ([opening] ++ right) (1 + opened) (limit + 1) := by
    refine parenthesis.append ?_
    rwa [Int.add_sub_cancel]
  rw [Int.add_comm opened]
  exact (nil (by omega)).between neutral behind

theorem take_le (nests : Nests left opened limit) {length : Nat} (inside : length ≤ left.length)
    (rest : List Token) : parenExcess ((left ++ rest).take length) ≤ limit := by
  rw [List.take_append_of_le_length inside]
  exact nests.bounded _ (List.take_prefix length left)

theorem closed (inner : Nests left 1 limit) (closes : token.kind = Delimiter.kind .rightParen) :
    Nests (left ++ [token]) 0 limit := by
  have nonneg := inner.bounded left List.prefix_rfl
  have excess := parenExcess_closing closes
  rw [inner.excess] at nonneg
  have parenthesis : Nests [token] (-1) (limit - 1) := excess ▸ single (by omega) (by omega)
  exact inner.append parenthesis

end Nests

/-- The tokens of a tree close what they open, and are nested no deeper than its calls. -/
theorem Tree.nests {phrase : Phrase} {tree : Tree phrase} {limit : Nat} {front : List Token}
    (spelled : front.map Token.symbol = tree.symbols) (atMost : tree.depth ≤ limit) :
    Nests front 0 limit := by
  induction tree generalizing limit front with
  | integer text | float text =>
      obtain ⟨token, rfl, kind, -⟩ := exists_of_map_symbol_eq_literal spelled
      have neutral := parenExcess_literal kind
      have nonneg := Int.natCast_nonneg limit
      exact neutral ▸ .single nonneg (neutral ▸ nonneg)
  | call function arguments induction =>
      obtain ⟨name, opening, inner, closing, rfl, called, opens, inner_eq, closes⟩ :=
        exists_of_map_symbol_eq_call spelled
      obtain ⟨limit, rfl⟩ := Nat.exists_eq_add_of_le' (Nat.one_le_of_lt atMost)
      have neutral := parenExcess_literal (Token.symbol_eq_literal_iff.mp called).1
      have opened := (induction inner_eq (Nat.le_of_succ_le_succ atMost)).inside neutral opens
      exact opened.closed closes
  | ofOperand operand induction => exact induction spelled atMost
  | raise base exponent base_induction exponent_induction =>
      obtain ⟨before, sign, after, rfl, before_eq, -, sign_eq, after_eq⟩ :=
        exists_of_map_symbol_eq spelled
      obtain ⟨base_le, exponent_le⟩ := Nat.max_le.mp atMost
      have neutral := parenExcess_operator (Token.symbol_eq_operator_iff.mp sign_eq)
      have behind := exponent_induction after_eq exponent_le
      exact (base_induction before_eq base_le).between neutral behind
  | single joins operand induction => exact induction spelled atMost
  | join joins left sign bound right left_induction right_induction =>
      obtain ⟨before, token, after, rfl, before_eq, -, token_eq, after_eq⟩ :=
        exists_of_map_symbol_eq spelled
      obtain ⟨left_le, right_le⟩ := Nat.max_le.mp atMost
      have neutral := parenExcess_operator (Token.symbol_eq_operator_iff.mp token_eq)
      have behind := right_induction after_eq right_le
      exact (left_induction before_eq left_le).between neutral behind
  | one argument induction => exact induction spelled atMost
  | more earlier last earlier_induction last_induction =>
      obtain ⟨before, comma, after, rfl, before_eq, -, comma_eq, after_eq⟩ :=
        exists_of_map_symbol_eq spelled
      obtain ⟨earlier_le, last_le⟩ := Nat.max_le.mp atMost
      have neutral := parenExcess_comma (Token.symbol_eq_delimiter_iff.mp comma_eq)
      have behind := last_induction after_eq last_le
      exact (earlier_induction before_eq earlier_le).between neutral behind

theorem Tree.Yields.nests {phrase : Phrase} {tree : Tree phrase} {room index : Nat}
    {front : List Token} {value : phrase.Meaning} (yields : tree.Yields room index front value) :
    Nests front 0 room :=
  Tree.nests yields.spelled (Tree.readable_and_depth_le yields.evaluated).2

theorem EndsInCall.between {before front : List Token} {token : Token} {room offset : Nat}
    (ends : EndsInCall front room offset) (complete : Nests before 0 room)
    (neutral : parenExcess [token] = 0) :
    EndsInCall (before ++ token :: front) room (before.length + 1 + offset) := by
  obtain ⟨inner, name, opening, rfl, rfl, opens, nests⟩ := ends
  refine ⟨before ++ token :: inner, name, opening, by simp, ?_, opens,
    complete.between neutral nests⟩
  simp only [List.length_append, List.length_cons]
  omega

theorem Refused.cause_ne_nestingTooDeep {next : Option Token} {cause : Cause}
    (refused : Refused next cause) : cause ≠ .nestingTooDeep := by
  cases refused with
  | noToken | name | noOperand => exact nofun
  | integer _ unread =>
      rw [eq_overflow_of_integerLiteral unread]
      exact nofun
  | float _ unread =>
      rw [eq_unexpected_of_floatLiteral unread]
      exact nofun

/-- Nesting is too deep only at a call for which there is no room. -/
theorem Failure.endsInCall {phrase : Phrase} {room index : Nat} {front : List Token}
    {next : Option Token} {error : EvalError} (failure : Failure phrase room index front next error)
    (tooDeep : error.cause = .nestingTooDeep) :
    ∃ offset, error.position = index + offset ∧ EndsInCall front room offset := by
  induction failure with
  | operand refused => exact absurd tooDeep refused.cause_ne_nestingTooDeep
  | opening | closing | comma | fault => cases tooDeep
  | @nesting index name opening _ function called opens =>
      have names : name.Names function := Token.symbol_eq_literal_iff.mp called
      exact ⟨0, rfl, [], name, opening, rfl, rfl, ⟨⟨function, names⟩, opens⟩, .nil (Int.le_refl _)⟩
  | @inside room index name opening front _ _ function called opens _ induction =>
      obtain ⟨_, position, inner, last, bracket, rfl, rfl, lastOpens, nests⟩ := induction tooDeep
      have neutral := parenExcess_literal (Token.symbol_eq_literal_iff.mp called).1
      exact ⟨inner.length + 2, by omega, name :: opening :: inner, last, bracket, rfl, rfl,
        lastOpens, nests.inside neutral opens⟩
  | base _ induction | first _ _ induction | only _ induction | earlier _ induction =>
      exact induction tooDeep
  -- The phrases in front are complete, so they leave no call open.
  | exponent yields kind _ induction =>
      obtain ⟨offset, position, ends⟩ := induction tooDeep
      exact ⟨_, by omega, ends.between yields.nests (parenExcess_operator kind)⟩
  | right _ yields kind _ _ induction =>
      obtain ⟨offset, position, ends⟩ := induction tooDeep
      exact ⟨_, by omega, ends.between yields.nests (parenExcess_operator kind)⟩
  | last yields kind _ induction =>
      obtain ⟨offset, position, ends⟩ := induction tooDeep
      exact ⟨_, by omega, ends.between yields.nests (parenExcess_comma kind)⟩

theorem endsInCall_of_evaluate {tokens : List Token} {position : Nat}
    (failed : evaluate tokens = .error ⟨.nestingTooDeep, position⟩) :
    ∃ front rest, tokens = front ++ rest ∧ EndsInCall front maxNesting position := by
  obtain ⟨front, rest, split, failure⟩ := exists_failure_of_evaluate failed
  obtain ⟨offset, same, ends⟩ := failure.endsInCall rfl
  have position_eq : position = offset := same.trans (Nat.zero_add offset)
  exact ⟨front, rest, split, position_eq ▸ ends⟩

theorem Failure.arguments {room index : Nat} {front : List Token} {next : Option Token}
    {error : EvalError} (failure : Failure (.chain .sum) room index front next error)
    (function : Builtin) : Failure (.arguments function.arity) room index front next error := by
  cases function with
  | pow => exact .earlier (.only failure)
  | sin | cos | tan | sqrt | log | ln | abs => exact .only failure

/-- One call more than there is room for, each in the one before, is too much whatever follows. -/
theorem failure_of_opened_calls {room : Nat} {calls : List (Token × Token)}
    (length : calls.length = room + 1) (opens : ∀ call ∈ calls, OpensCall call.1 call.2)
    (index : Nat) (next : Option Token) :
    Failure (.chain .sum) room index (calls.flatMap fun call => [call.1, call.2]) next
      ⟨.nestingTooDeep, index + 2 * room⟩ := by
  induction room generalizing calls index with
  | zero =>
      obtain ⟨call, rfl⟩ := List.length_eq_one_iff.mp length
      obtain ⟨⟨function, names⟩, bracket⟩ := opens call List.mem_cons_self
      have called : call.1.symbol = .literal .identifier function.name :=
        Token.symbol_eq_literal_iff.mpr names
      exact .first .sum (.first .product (.base (.nesting called bracket)))
  | succ room induction =>
      obtain ⟨call, calls, rfl⟩ := List.exists_cons_of_length_eq_add_one length
      obtain ⟨⟨function, names⟩, bracket⟩ := opens call List.mem_cons_self
      have called : call.1.symbol = .literal .identifier function.name :=
        Token.symbol_eq_literal_iff.mpr names
      have deeper := induction (Nat.succ.inj length)
        (fun other member => opens other (List.mem_cons_of_mem call member)) (index + 2)
      rw [show index + 2 + 2 * room = index + 2 * (room + 1) by omega] at deeper
      have outer := Failure.inside called bracket (deeper.arguments function)
      exact .first .sum (.first .product (.base outer))

theorem nests_of_evaluate {tokens : List Token} {value : Value}
    (result : evaluate tokens = .ok value) :
    ∃ front rest, tokens = front ++ rest ∧ Nests front 0 maxNesting ∧
      (Reader.nested maxNesting).run ⟨0, tokens⟩ = .ok (value, ⟨front.length, rest⟩) := by
  rw [evaluate_eq_read] at result
  rw [Reader.nested_eq]
  cases Phrase.explained_sum maxNesting 0 tokens with
  | @failure front rest error split failure =>
      rw [split, failure.read rfl] at result
      cases result
  | @value tree front rest found split yields ends =>
      have read := yields.read rest (Phrase.ends_last ends)
      rw [Phrase.resume_of_ends (.chain .sum) _ _ found ends, ← split] at read
      rw [read] at result
      obtain rfl := Except.ok.inj result
      rw [Nat.zero_add] at read
      exact ⟨front, rest, split, yields.nests, read⟩

/-- An expression whose calls are nested no deeper than the limit never exceeds it: the call for
which there is no room would be one of its own, and behind it too many parentheses are open. -/
theorem Tree.Begins.evaluate_ne_nestingTooDeep {tree : Tree (.chain .sum)}
    {tokens tail : List Token} (begins : tree.Begins tokens tail) (atMost : tree.depth ≤ maxNesting)
    (position : Nat) : evaluate tokens ≠ .error ⟨.nestingTooDeep, position⟩ := by
  intro failed
  obtain ⟨before, rest, split, inner, name, opening, rfl, rfl, opens, nests⟩ :=
    endsInCall_of_evaluate failed
  rw [begins.evaluate_eq] at failed
  obtain ⟨front, rfl, spelled, _⟩ := begins
  obtain ⟨offset, same, _, _, _, next, _⟩ := Tree.pointsInto_of_eval spelled failed
  have position_eq : inner.length = offset := same.trans (Nat.zero_add offset)
  have inside : inner.length + 2 ≤ front.length := by
    rw [position_eq]
    exact (List.getElem?_eq_some_iff.mp next).1
  have bound := (Tree.nests spelled atMost).take_le inside tail
  rw [split, List.take_left' (by simp), List.append_cons, parenExcess_append, parenExcess_append,
    nests.excess, opens.neutral, parenExcess_opening opens.2] at bound
  omega

/-- Nesting is too deep at a name exactly when the calls that are open in front of it reach the
limit: no prefix up to the name has more of them open, what is consumed has never more of them open,
expressions that are nested no deeper than the limit do not exceed it, and one call more than the
limit exceeds it at once. -/
theorem nesting_limit_counts_open_calls :
    (∀ (tokens : List Token) (position : Nat),
      evaluate tokens = .error ⟨.nestingTooDeep, position⟩ →
        (∃ name ∈ tokens[position]?, ∃ opening ∈ tokens[position + 1]?, OpensCall name opening) ∧
        parenExcess (tokens.take position) = maxNesting ∧
        ∀ shorter ≤ position + 1, parenExcess (tokens.take shorter) ≤ maxNesting) ∧
    (∀ (tokens : List Token) (value : Value), evaluate tokens = .ok value →
      ∃ after, (Reader.nested maxNesting).run ⟨0, tokens⟩ = .ok (value, after) ∧
        after.rest = tokens.drop after.index ∧
        ∀ shorter ≤ after.index, parenExcess (tokens.take shorter) ≤ maxNesting) ∧
    (∀ (tree : Tree (.chain .sum)) (tokens tail : List Token), tree.Begins tokens tail →
      tree.depth ≤ maxNesting → ∀ position, evaluate tokens ≠ .error ⟨.nestingTooDeep, position⟩) ∧
    ∀ (calls : List (Token × Token)) (rest : List Token), calls.length = maxNesting + 1 →
      (∀ call ∈ calls, OpensCall call.1 call.2) →
        evaluate ((calls.flatMap fun call => [call.1, call.2]) ++ rest) =
          .error ⟨.nestingTooDeep, 2 * maxNesting⟩ := by
  refine ⟨?_, ?_, fun _ _ _ begins atMost => begins.evaluate_ne_nestingTooDeep atMost, ?_⟩
  · intro tokens position failed
    obtain ⟨_, rest, rfl, before, name, opening, rfl, rfl, opens, nests⟩ :=
      endsInCall_of_evaluate failed
    have named : Nests (before ++ [name]) (maxNesting + 0) maxNesting := by
      refine nests.append (opens.neutral ▸ .single ?_ ?_)
      · omega
      · rw [opens.neutral]
        omega
    refine ⟨⟨name, by simp, opening, by simp, opens⟩, ?_, fun shorter inside => ?_⟩
    · rw [List.append_assoc, List.take_left, nests.excess]
    · rw [List.append_cons before name, List.append_assoc]
      exact named.take_le (by simpa using inside) _
  · intro tokens value result
    obtain ⟨front, rest, rfl, nests, read⟩ := nests_of_evaluate result
    exact ⟨_, read, List.drop_left.symm, fun shorter inside => nests.take_le inside rest⟩
  · intro calls rest length opens
    have failure := failure_of_opened_calls length opens 0 rest.head?
    rw [Nat.zero_add] at failure
    exact failure.evaluate_eq

/-- A token of the name of a function. -/
def Builtin.token (function : Builtin) : Token := ⟨.literal .identifier, function.name, .start⟩

/-- The parenthesis of `abs(0)` is one of 200 that may be open, and the name of the 201st function
in `sin(sin(…` is one too many. -/
theorem evaluate_sines_in_sines :
    (Tree.Begins (.single .sum (.single .product (.ofOperand (.call .abs
        (.one (.single .sum (.single .product (.ofOperand (.integer "0")))))))))
        [Builtin.abs.token, Delimiter.leftParen.token, .zero, Delimiter.rightParen.token] [] ∧
      (∀ position, evaluate
        [Builtin.abs.token, Delimiter.leftParen.token, .zero, Delimiter.rightParen.token] ≠
          .error ⟨.nestingTooDeep, position⟩)) ∧
    (evaluate [Builtin.abs.token, Delimiter.leftParen.token, .zero, Delimiter.rightParen.token] =
        .ok (.integer 0) ∧
      ∃ after, (Reader.nested maxNesting).run
          ⟨0, [Builtin.abs.token, Delimiter.leftParen.token, .zero, Delimiter.rightParen.token]⟩ =
            .ok (.integer 0, after)) ∧
    evaluate ((List.replicate 201 (Builtin.sin.token, Delimiter.leftParen.token)).flatMap
        fun call => [call.1, call.2]) = .error ⟨.nestingTooDeep, 400⟩ ∧
      parenExcess (((List.replicate 201 (Builtin.sin.token, Delimiter.leftParen.token)).flatMap
        fun call => [call.1, call.2]).take 400) = 200 := by
  obtain ⟨atLimit, consumed, shallow, tooMany⟩ := nesting_limit_counts_open_calls
  have begins : Tree.Begins (.single .sum (.single .product (.ofOperand (.call .abs
      (.one (.single .sum (.single .product (.ofOperand (.integer "0")))))))))
      [Builtin.abs.token, Delimiter.leftParen.token, .zero, Delimiter.rightParen.token] [] :=
    ⟨_, (List.append_nil _).symm, rfl, nofun⟩
  have result : evaluate
      [Builtin.abs.token, Delimiter.leftParen.token, .zero, Delimiter.rightParen.token] =
        .ok (.integer 0) := begins.evaluate_eq
  obtain ⟨after, read, _⟩ := consumed _ _ result
  have opens : ∀ call ∈ List.replicate 201 (Builtin.sin.token, Delimiter.leftParen.token),
      OpensCall call.1 call.2 := by
    intro call member
    obtain ⟨_, rfl⟩ := List.mem_replicate.mp member
    exact ⟨⟨.sin, rfl, rfl⟩, rfl⟩
  have failed := tooMany _ [] List.length_replicate opens
  rw [List.append_nil] at failed
  exact ⟨⟨begins, shallow _ _ _ begins (by decide)⟩, ⟨result, after, read⟩, failed,
    (atLimit _ _ failed).2.1⟩

end Calculator
