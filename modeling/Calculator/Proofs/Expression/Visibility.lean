import Calculator.Proofs.Expression.Viability

/-!
# What evaluation sees of its tokens

Two lists of tokens that have the same symbols are evaluated alike: to the same value, or to the
same failure at the same index.  Only the text that a failure quotes is that of the token in its own
list, because a token that is out of place need not be a literal.
-/

namespace Calculator

/-- Two tokens are of the same kind, and literals and names have the same text as well. -/
def Token.Alike (left right : Token) : Prop :=
  left.kind = right.kind ∧ ∀ form, left.kind = .literal form → left.text = right.text

/-- The cause with another text in the place of the one that was found instead of an expected
token. -/
def Cause.quoting (found : Option String) : Cause → Cause
  | unexpected expected _ => unexpected expected found
  | cause => cause

/-- Evaluation cannot tell tokens that are alike from each other. -/
theorem Token.alike_iff_symbol_eq {left right : Token} :
    left.Alike right ↔ left.symbol = right.symbol := by
  by_cases isLiteral : ∃ form, left.kind = .literal form
  · obtain ⟨form, kind⟩ := isLiteral
    rw [Token.symbol_eq_literal_iff.mpr ⟨kind, rfl⟩, eq_comm (a := Symbol.literal _ _),
      Token.symbol_eq_literal_iff, Alike, kind]
    constructor
    · exact fun alike => ⟨alike.1.symm, (alike.2 form rfl).symm⟩
    · exact fun same => ⟨same.1.symm, fun _ _ => same.2.symm⟩
  · rw [not_exists] at isLiteral
    rw [(Token.symbol_eq_mark_iff isLiteral).mpr rfl, eq_comm (a := Symbol.mark _),
      Token.symbol_eq_mark_iff isLiteral, Alike]
    constructor
    · exact fun alike => alike.1.symm
    · exact fun same => ⟨same.symm, fun form kind => absurd kind (isLiteral form)⟩

theorem Token.map_symbol_eq_of_alike {left right : List Token}
    (alike : List.Forall₂ Token.Alike left right) :
    left.map Token.symbol = right.map Token.symbol := by
  induction alike with
  | nil => rfl
  | cons same _ induction =>
      rw [List.map_cons, List.map_cons, Token.alike_iff_symbol_eq.mp same, induction]

theorem Token.kind_eq_of_symbol_eq {left right : Token} (same : left.symbol = right.symbol) :
    left.kind = right.kind :=
  (Token.alike_iff_symbol_eq.mpr same).1

/-- A list with the symbols of another one splits at a token where the other one does. -/
theorem exists_split_of_map_symbol_eq {other before after : List Token} {token : Token}
    (same : other.map Token.symbol = (before ++ token :: after).map Token.symbol) :
    ∃ otherBefore standing otherAfter, other = otherBefore ++ standing :: otherAfter ∧
      otherBefore.map Token.symbol = before.map Token.symbol ∧
      otherBefore.length = before.length ∧ standing.kind = token.kind ∧
      otherAfter.map Token.symbol = after.map Token.symbol := by
  rw [List.map_append, List.map_cons] at same
  obtain ⟨otherBefore, standing, otherAfter, rfl, before_eq, length_eq, token_eq, after_eq⟩ :=
    exists_of_map_symbol_eq same
  rw [List.length_map] at length_eq
  exact ⟨otherBefore, standing, otherAfter, rfl, before_eq, length_eq.symm,
    Token.kind_eq_of_symbol_eq token_eq, after_eq⟩

theorem exists_call_of_map_symbol_eq {other front : List Token} {name opening : Token}
    (same : other.map Token.symbol = (name :: opening :: front).map Token.symbol) :
    ∃ otherName otherOpening otherFront, other = otherName :: otherOpening :: otherFront ∧
      otherName.symbol = name.symbol ∧ otherOpening.kind = opening.kind ∧
      otherFront.map Token.symbol = front.map Token.symbol := by
  obtain ⟨otherName, rest, rfl, name_eq, later⟩ := List.map_eq_cons_iff.mp same
  obtain ⟨otherOpening, otherFront, rfl, opening_eq, front_eq⟩ := List.map_eq_cons_iff.mp later
  exact ⟨otherName, otherOpening, otherFront, rfl, name_eq,
    Token.kind_eq_of_symbol_eq opening_eq, front_eq⟩

theorem Cause.quoting_of_ne {cause : Cause} (found : Option String)
    (other : ∀ expected text, cause ≠ .unexpected expected text) : cause.quoting found = cause := by
  cases cause with
  | unexpected expected text => exact absurd rfl (other expected text)
  | fault | endOfTokens | unknownName | nestingTooDeep => rfl

theorem Refused.alike {token other : Token} {cause : Cause} (refused : Refused (some token) cause)
    (alike : token.Alike other) : Refused (some other) (cause.quoting (some other.text)) := by
  cases refused with
  | integer kind unread =>
      rw [alike.2 _ kind] at unread
      obtain rfl := eq_overflow_of_integerLiteral unread
      exact .integer (alike.1 ▸ kind) unread
  | float kind unread =>
      rw [alike.2 _ kind] at unread
      obtain rfl := eq_unexpected_of_floatLiteral unread
      exact .float (alike.1 ▸ kind) unread
  | name kind unknown =>
      rw [alike.2 _ kind] at unknown ⊢
      exact .name (alike.1 ▸ kind) unknown
  | noOperand kind => exact .noOperand (alike.1 ▸ kind)

theorem Tree.Yields.alike {phrase : Phrase} {tree : Tree phrase} {room index : Nat}
    {front other : List Token} {value : phrase.Meaning}
    (yields : tree.Yields room index front value)
    (same : other.map Token.symbol = front.map Token.symbol) :
    tree.Yields room index other value :=
  ⟨same.trans yields.spelled, yields.evaluated⟩

theorem refused_kind_of_alike {next other : Option Token} {kind : Kind}
    (same : other.map Token.symbol = next.map Token.symbol)
    (refused : ∀ token ∈ next, token.kind ≠ kind) : ∀ token ∈ other, token.kind ≠ kind := by
  rintro token rfl
  obtain ⟨standing, rfl, symbol⟩ := Option.map_eq_some_iff.mp same.symm
  rw [← Token.kind_eq_of_symbol_eq symbol]
  exact refused standing rfl

/-- A failure in one list is a failure in the other, with the text that is found there. -/
theorem Failure.alike {phrase : Phrase} {room index : Nat} {front other : List Token}
    {next otherNext : Option Token} {error : EvalError}
    (failure : Failure phrase room index front next error)
    (same : other.map Token.symbol = front.map Token.symbol)
    (sameNext : otherNext.map Token.symbol = next.map Token.symbol) :
    Failure phrase room index other otherNext
      ⟨error.cause.quoting (otherNext.map Token.text), error.position⟩ := by
  have length_eq {left right : List Token} (same : left.map Token.symbol = right.map Token.symbol) :
      left.length = right.length := by
    simpa using congrArg List.length same
  induction failure generalizing other with
  | @operand _ _ next cause refused =>
      obtain rfl := List.map_eq_nil_iff.mp same
      cases next with
      | none =>
          obtain rfl := Option.map_eq_none_iff.mp sameNext
          cases refused
          exact .operand .noToken
      | some token =>
          obtain ⟨standing, rfl, symbol⟩ := Option.map_eq_some_iff.mp sameNext
          exact .operand (refused.alike (Token.alike_iff_symbol_eq.mpr symbol.symm))
  | opening called refused =>
      obtain ⟨name, rest, rfl, symbol, none⟩ := List.map_eq_cons_iff.mp same
      obtain rfl := List.map_eq_nil_iff.mp none
      exact .opening (symbol.trans called) (refused_kind_of_alike sameNext refused)
  | nesting called opens =>
      obtain ⟨name, bracket, rest, rfl, symbol, kind, none⟩ := exists_call_of_map_symbol_eq same
      obtain rfl := List.map_eq_nil_iff.mp none
      exact .nesting (symbol.trans called) (kind.trans opens)
  | inside called opens _ induction =>
      obtain ⟨name, bracket, rest, rfl, symbol, kind, inner⟩ := exists_call_of_map_symbol_eq same
      exact .inside (symbol.trans called) (kind.trans opens) (induction inner sameNext)
  | closing called opens yields ends refused =>
      obtain ⟨name, bracket, rest, rfl, symbol, kind, inner⟩ := exists_call_of_map_symbol_eq same
      rw [← sameNext] at ends
      rw [← length_eq inner]
      exact .closing (symbol.trans called) (kind.trans opens) (yields.alike inner) ends
        (refused_kind_of_alike sameNext refused)
  | comma yields ends refused =>
      rw [← sameNext] at ends
      rw [← length_eq same]
      exact .comma (yields.alike same) ends (refused_kind_of_alike sameNext refused)
  | fault spelled ends failed =>
      rw [← sameNext] at ends
      exact .fault (same.trans spelled) ends failed
  | base _ induction => exact .base (induction same sameNext)
  | exponent yields kind _ induction =>
      obtain ⟨before, sign, after, rfl, before_eq, length_eq, kind_eq, after_eq⟩ :=
        exists_split_of_map_symbol_eq same
      rw [← length_eq] at induction
      exact .exponent (yields.alike before_eq) (kind_eq.trans kind) (induction after_eq sameNext)
  | first joins _ induction => exact .first joins (induction same sameNext)
  | right joins yields kind bound _ induction =>
      obtain ⟨before, sign, after, rfl, before_eq, length_eq, kind_eq, after_eq⟩ :=
        exists_split_of_map_symbol_eq same
      rw [← length_eq] at induction
      exact .right joins (yields.alike before_eq) (kind_eq.trans kind) bound
        (induction after_eq sameNext)
  | only _ induction => exact .only (induction same sameNext)
  | earlier _ induction => exact .earlier (induction same sameNext)
  | last yields kind _ induction =>
      obtain ⟨before, comma, after, rfl, before_eq, length_eq, kind_eq, after_eq⟩ :=
        exists_split_of_map_symbol_eq same
      rw [← length_eq] at induction
      exact .last (yields.alike before_eq) (kind_eq.trans kind) (induction after_eq sameNext)

theorem Tree.Begins.alike {tree : Tree (.chain .sum)} {tokens tail others : List Token}
    (begins : tree.Begins tokens tail)
    (same : others.map Token.symbol = tokens.map Token.symbol) :
    ∃ otherTail, tree.Begins others otherTail := by
  obtain ⟨front, rfl, spelled, ended⟩ := begins
  rw [List.map_append] at same
  obtain ⟨otherFront, otherTail, rfl, front_eq, tail_eq⟩ := List.map_eq_append_iff.mp same
  refine ⟨otherTail, otherFront, rfl, front_eq.trans spelled, fun token next sign kind => ?_⟩
  have heads := congrArg List.head? tail_eq
  rw [List.head?_map, List.head?_map] at heads
  have free : ∀ other ∈ tail.head?, other.kind ≠ .operator sign := fun other standing =>
    ended other standing sign
  exact refused_kind_of_alike heads free token next kind

/-- The evaluation of lists of tokens that are alike, index by index, has the same value, or fails
at the same index for the same cause; only a syntax error about a missing token quotes the text that
its own list has at that index. -/
theorem evaluate_agrees_of_alike {left right : List Token}
    (alike : List.Forall₂ Token.Alike left right) :
    (∃ value, evaluate left = .ok value ∧ evaluate right = .ok value) ∨
    ∃ position,
      (∃ cause, (∀ expected found, cause ≠ .unexpected expected found) ∧
        evaluate left = .error ⟨cause, position⟩ ∧ evaluate right = .error ⟨cause, position⟩) ∨
      ∃ expected,
        evaluate left =
          .error ⟨.unexpected expected (left[position]?.map Token.text), position⟩ ∧
        evaluate right =
          .error ⟨.unexpected expected (right[position]?.map Token.text), position⟩ := by
  have same := Token.map_symbol_eq_of_alike alike
  cases result : evaluate left with
  | ok value =>
      obtain ⟨tree, tail, begins⟩ := exists_begins_of_evaluate result
      obtain ⟨otherTail, otherBegins⟩ := begins.alike same.symm
      refine .inl ⟨value, rfl, ?_⟩
      rw [otherBegins.evaluate_eq, ← begins.evaluate_eq, result]
  | error error =>
      obtain ⟨cause, position⟩ := error
      obtain ⟨front, rest, rfl, failure⟩ := exists_failure_of_evaluate result
      rw [List.map_append] at same
      obtain ⟨otherFront, otherRest, rfl, front_eq, rest_eq⟩ := List.map_eq_append_iff.mp same.symm
      have heads := congrArg List.head? rest_eq
      rw [List.head?_map, List.head?_map] at heads
      have otherResult := (failure.alike front_eq heads).evaluate_eq
      refine .inr ⟨position, ?_⟩
      by_cases quotes : ∃ expected found, cause = .unexpected expected found
      · obtain ⟨expected, found, rfl⟩ := quotes
        have behind (front rest : List Token) : (front ++ rest)[front.length]? = rest.head? := by
          rw [List.getElem?_append_right (Nat.le_refl _), Nat.sub_self, List.head?_eq_getElem?]
        obtain ⟨position_eq, found_eq⟩ := failure.position_and_found_eq trivial
        have here : position = front.length := position_eq.trans (Nat.zero_add _)
        have there : position = otherFront.length := by
          rw [here]
          simpa using (congrArg List.length front_eq).symm
        refine .inr ⟨expected, ?_, ?_⟩
        · rw [here, behind, ← found_eq]
          rfl
        · rw [there, behind, ← there]
          exact otherResult
      · have other : ∀ expected found, cause ≠ .unexpected expected found :=
          fun expected found same => quotes ⟨expected, found, same⟩
        rw [Cause.quoting_of_ne _ other] at otherResult
        exact .inl ⟨cause, other, rfl, otherResult⟩

/-- With other positions and other texts of the sign and the bracket, `0 + )` fails at the same
index and quotes the other bracket. -/
theorem evaluate_sum_with_brackets :
    List.Forall₂ Token.Alike
      [.zero, ⟨.operator .plus, "+", ⟨1, 3⟩⟩, ⟨.punctuation .rightParen, ")", ⟨1, 5⟩⟩]
      [.zero, ⟨.operator .plus, "plus", ⟨2, 1⟩⟩, ⟨.punctuation .rightParen, "]", ⟨3, 1⟩⟩] ∧
    evaluate [.zero, ⟨.operator .plus, "+", ⟨1, 3⟩⟩, ⟨.punctuation .rightParen, ")", ⟨1, 5⟩⟩] =
      .error ⟨.unexpected .expression (some ")"), 2⟩ ∧
    evaluate [.zero, ⟨.operator .plus, "plus", ⟨2, 1⟩⟩, ⟨.punctuation .rightParen, "]", ⟨3, 1⟩⟩] =
      .error ⟨.unexpected .expression (some "]"), 2⟩ := by
  have alike : List.Forall₂ Token.Alike
      [.zero, ⟨.operator .plus, "+", ⟨1, 3⟩⟩, ⟨.punctuation .rightParen, ")", ⟨1, 5⟩⟩]
      [.zero, ⟨.operator .plus, "plus", ⟨2, 1⟩⟩, ⟨.punctuation .rightParen, "]", ⟨3, 1⟩⟩] :=
    .cons ⟨rfl, fun _ _ => rfl⟩ (.cons ⟨rfl, nofun⟩ (.cons ⟨rfl, nofun⟩ .nil))
  have left : (Tree.single .sum (.single .product (.ofOperand (.integer "0")))).Yields maxNesting 0
      [.zero] (.integer 0) := ⟨rfl, rfl⟩
  have right : Failure (.chain .product) maxNesting 2 []
      (some ⟨.punctuation .rightParen, ")", ⟨1, 5⟩⟩) ⟨.unexpected .expression (some ")"), 2⟩ :=
    .first .product (.base (.operand (.noOperand nofun)))
  have sum : Failure (.chain .sum) maxNesting 0 ([.zero] ++ ⟨.operator .plus, "+", ⟨1, 3⟩⟩ :: [])
      _ _ := .right .sum left rfl rfl right
  have failed : evaluate
      [.zero, ⟨.operator .plus, "+", ⟨1, 3⟩⟩, ⟨.punctuation .rightParen, ")", ⟨1, 5⟩⟩] =
        .error ⟨.unexpected .expression (some ")"), 2⟩ :=
    @Failure.evaluate_eq [.zero, ⟨.operator .plus, "+", ⟨1, 3⟩⟩] [_] _ sum
  refine ⟨alike, failed, ?_⟩
  rcases evaluate_agrees_of_alike alike with
    ⟨_, found, _⟩ | ⟨position, ⟨cause, other, found, _⟩ | ⟨expected, found, quoted⟩⟩
  · cases failed.symm.trans found
  · obtain ⟨rfl, -⟩ := EvalError.mk.inj (Except.error.inj (failed.symm.trans found))
    exact absurd rfl (other _ _)
  · obtain ⟨cause_eq, rfl⟩ := EvalError.mk.inj (Except.error.inj (failed.symm.trans found))
    obtain ⟨rfl, -⟩ := Cause.unexpected.inj cause_eq
    exact quoted

end Calculator
