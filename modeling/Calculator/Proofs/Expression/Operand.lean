import Calculator.Proofs.Expression.Tail

/-!
# Where operands are read

Tokens that run out in front of an operand fix how every evaluation of tokens that begin with them
goes on: it reads an operand behind them, and whatever comes after that depends on this operand and
on the tokens behind it alone.
-/

namespace Calculator

/-- A computation on the tokens from an index on begins with reading an operand there, with room for
so many calls, and goes on with what was read. -/
def BeginsWithOperand {α : Type} (index room : Nat) (goOn : Value × Cursor → Except EvalError α)
    (run : List Token → Except EvalError α) : Prop :=
  ∀ rest, run rest = readOperand (Reader.within room) ⟨index, rest⟩ >>= goOn

/-- Evaluation reads an operand behind some tokens, whatever follows them, and goes on with it. -/
def ReadsOperandBehind (front : List Token) (room : Nat)
    (goOn : Value × Cursor → Except EvalError Value) : Prop :=
  BeginsWithOperand front.length room goOn fun rest => evaluate (front ++ rest)

/-- A computation on the tokens from an index on begins with reading some operand. -/
def Awaits {α : Type} (index : Nat) (run : List Token → Except EvalError α) : Prop :=
  ∃ room goOn, BeginsWithOperand index room goOn run

namespace Awaits

variable {α β : Type} {index : Nat} {run other : List Token → Except EvalError α}

theorem bind (awaits : Awaits index run) (next : α → Except EvalError β) :
    Awaits index fun rest => run rest >>= next := by
  obtain ⟨room, goOn, reads⟩ := awaits
  refine ⟨room, fun read => goOn read >>= next, fun rest => ?_⟩
  rw [← bind_assoc, ← reads rest]

theorem of_eq (awaits : Awaits index run) (same : ∀ rest, other rest = run rest) :
    Awaits index other := by
  obtain ⟨room, goOn, reads⟩ := awaits
  exact ⟨room, goOn, fun rest => (same rest).trans (reads rest)⟩

end Awaits

/-- Where the tokens run out in front of an operand, reading goes on with an operand. -/
theorem Failure.awaits {phrase : Phrase} {room index : Nat} {front : List Token}
    {next : Option Token} {error : EvalError} (failure : Failure phrase room index front next error)
    (ended : error.cause = .endOfTokens) :
    Awaits (index + front.length) fun rest => phrase.read room ⟨index, front ++ rest⟩ := by
  induction failure with
  | @operand room _ _ _ _ => exact ⟨room, pure, fun rest => (bind_pure _).symm⟩
  | opening | nesting | closing | comma | fault => cases ended
  | @inside _ index name opening front _ _ _ called opens _ induction =>
      have place : index + (name :: opening :: front).length = index + 2 + front.length := by
        simp only [List.length_cons]
        omega
      rw [place]
      exact ((induction ended).bind _).of_eq fun rest => Phrase.read_call _ _ _ called opens
  | base _ induction =>
      exact ((induction ended).bind _).of_eq fun rest => Phrase.read_power _ _
  | exponent yields kind _ induction =>
      rw [index_append]
      simp only [List.append_assoc, List.cons_append, yields.read_exponent kind]
      exact (induction ended).bind _
  | first joins _ induction =>
      exact ((induction ended).bind _).of_eq fun rest => Phrase.read_chain joins _ _
  | right joins yields kind bound _ induction =>
      rw [index_append]
      simp only [List.append_assoc, List.cons_append, yields.read_right joins kind bound]
      exact (induction ended).bind _
  | only _ induction =>
      exact ((induction ended).bind _).of_eq fun rest => Phrase.read_arguments_one _ _
  | earlier _ induction =>
      exact ((induction ended).bind _).of_eq fun rest => Phrase.read_arguments_more _ _ _
  | last yields kind _ induction =>
      rw [index_append]
      simp only [List.append_assoc, List.cons_append, yields.read_last kind]
      exact (induction ended).bind _

/-- Evaluation comes to an operand exactly where tokens run out in front of one. -/
theorem exists_readsOperandBehind_iff {front : List Token} :
    (∃ room goOn, ReadsOperandBehind front room goOn) ↔
      evaluate front = .error ⟨.endOfTokens, front.length⟩ := by
  constructor
  · rintro ⟨room, goOn, reads⟩
    rw [← List.append_nil front]
    exact (reads []).trans (by simp [readOperand, bind, Except.bind])
  · intro failed
    obtain ⟨before, rest, rfl, failure⟩ := exists_failure_of_evaluate failed
    have position : (before ++ rest).length = 0 + before.length :=
      (failure.position_and_found_eq trivial).1
    obtain rfl : rest = [] := by
      rw [List.length_append] at position
      exact List.eq_nil_of_length_eq_zero (by omega)
    have awaits := (failure.awaits rfl).bind fun read => .ok read.1
    rw [Nat.zero_add] at awaits
    rw [List.append_nil]
    refine awaits.of_eq fun rest => ?_
    rw [evaluate_eq_read]
    cases (Phrase.chain .sum).read maxNesting ⟨0, before ++ rest⟩ <;> rfl

/-- A token is a literal that can be read as a value. -/
def Token.HasValue (token : Token) (value : Value) : Prop :=
  token.kind = .literal .integer ∧ integerLiteral token.text = .ok value ∨
    token.kind = .literal .float ∧ floatLiteral token.text = .ok value

namespace Token.HasValue

variable {token : Token} {value : Value}

theorem readOperand_eq (number : token.HasValue value) (argument : Option (Reader Value))
    (index : Nat) (rest : List Token) :
    readOperand argument ⟨index, token :: rest⟩ = .ok (value, ⟨index + 1, rest⟩) := by
  rcases number with ⟨kind, read⟩ | ⟨kind, read⟩
  · simp only [readOperand, kind, read]
    rfl
  · simp only [readOperand, kind, read]
    rfl

theorem not_refused (number : token.HasValue value) (cause : Cause) :
    ¬Refused (some token) cause := by
  intro refused
  rcases number with ⟨kind, read⟩ | ⟨kind, read⟩
  · cases refused with
    | integer _ unread => cases read.symm.trans unread
    | float other | name other => cases kind.symm.trans other
    | noOperand other => exact other _ kind
  · cases refused with
    | integer other | name other => cases kind.symm.trans other
    | float _ unread => cases read.symm.trans unread
    | noOperand other => exact other _ kind

/-- Where a number stands, evaluation fails only for the lack of a delimiter. -/
theorem exists_delimiter_of_stemsFrom (number : token.HasValue value) {before after : List Token}
    {cause : Cause} (stems : cause.StemsFrom before token after) :
    ∃ mark found, cause = .unexpected (.delimiter mark) found := by
  have literal : ∃ form, token.kind = .literal form ∧ form ≠ .identifier := by
    rcases number with ⟨kind, _⟩ | ⟨kind, _⟩
    · exact ⟨_, kind, nofun⟩
    · exact ⟨_, kind, nofun⟩
  obtain ⟨form, kind, noName⟩ := literal
  cases stems with
  | operand refused => exact absurd refused (number.not_refused cause)
  | sign other => cases kind.symm.trans other
  | call names | nesting names => exact absurd (Kind.literal.inj (kind.symm.trans names.1)) noName
  | opening | delimiter => exact ⟨_, _, rfl⟩

theorem exists_delimiter_of_evaluate (number : token.HasValue value) {list : List Token}
    {index : Nat} {cause : Cause} (standing : token ∈ list[index]?)
    (failed : evaluate list = .error ⟨cause, index⟩) :
    ∃ mark found, cause = .unexpected (.delimiter mark) found := by
  obtain ⟨inside, there⟩ := List.getElem?_eq_some_iff.mp standing
  have goesOn : ¬cause.IsEnd := fun ended => inside.ne ((position_eq_length_iff failed).mpr ended)
  obtain ⟨before, blamed, after, rfl, position, stems⟩ := stemsFrom_of_evaluate failed goesOn
  obtain rfl : index = before.length := position.trans (Nat.zero_add _)
  obtain rfl : blamed = token := by simpa using there
  exact number.exists_delimiter_of_stemsFrom stems

theorem evaluate_ne (number : token.HasValue value) {front : List Token}
    (awaited : evaluate front = .error ⟨.endOfTokens, front.length⟩) (rest : List Token)
    (cause : Cause) : evaluate (front ++ token :: rest) ≠ .error ⟨cause, front.length⟩ := by
  intro failed
  have standing : token ∈ (front ++ token :: rest)[front.length]? := by simp
  obtain ⟨mark, found, rfl⟩ := number.exists_delimiter_of_evaluate standing failed
  -- A delimiter that is missing there is missing too where the tokens run out.
  obtain ⟨before, others, split, failure⟩ := exists_failure_of_evaluate failed
  have position := (failure.position_and_found_eq trivial).1
  obtain ⟨rfl, rfl⟩ := List.append_inj split (position.trans (Nat.zero_add _))
  have readable : ∀ standing ∈ (token :: rest).head?, standing.kind = .literal .integer →
      ∃ value, integerLiteral standing.text = .ok value := by
    rintro _ ⟨⟩ kind
    rcases number with ⟨_, read⟩ | ⟨other, _⟩
    · exact ⟨value, read⟩
    · cases kind.symm.trans other
  have missing := @Failure.evaluate_eq front [] _ (failure.facing readable nofun fun _ => nofun)
  rw [List.append_nil, awaited] at missing
  cases missing

end Token.HasValue

namespace ReadsOperandBehind

variable {front : List Token} {room : Nat} {goOn : Value × Cursor → Except EvalError Value}
  {token : Token}

theorem evaluate_of_hasValue (reads : ReadsOperandBehind front room goOn) {value : Value}
    (number : token.HasValue value) (rest : List Token) :
    evaluate (front ++ token :: rest) = goOn (value, ⟨front.length + 1, rest⟩) := by
  have read := reads (token :: rest)
  rw [number.readOperand_eq] at read
  exact read

theorem evaluate_of_refused (reads : ReadsOperandBehind front room goOn) {cause : Cause}
    (refused : Refused (some token) cause) (rest : List Token) :
    evaluate (front ++ token :: rest) = .error ⟨cause, front.length⟩ := by
  have failed : readOperand (Reader.within room) ⟨front.length, token :: rest⟩ =
      .error ⟨cause, front.length⟩ := @Refused.read _ (token :: rest) refused room front.length
  have read := reads (token :: rest)
  rw [failed] at read
  exact read

end ReadsOperandBehind

end Calculator
