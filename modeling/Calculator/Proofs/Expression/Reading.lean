import Calculator.Expression.Tree

/-!
# Readers of phrases

Every kind of phrase has its reader.  This file says what the readers do next to a phrase: which
operators go on with it, which of them a loop takes in, and how a chain of powers is read by one
rule that calls itself.
-/

namespace Calculator

theorem Token.symbol_eq_mark_iff {token : Token} {kind : Kind}
    (other : ∀ form, kind ≠ .literal form) : token.symbol = .mark kind ↔ token.kind = kind := by
  unfold Token.symbol
  split
  · rename_i form isLiteral
    constructor
    · exact nofun
    · intro same
      exact absurd (same.symm.trans isLiteral) (other form)
  · exact ⟨Symbol.mark.inj, congrArg Symbol.mark⟩

theorem Token.symbol_eq_literal_iff {token : Token} {form : Literal} {text : String} :
    token.symbol = .literal form text ↔ token.kind = .literal form ∧ token.text = text := by
  unfold Token.symbol
  split
  · rename_i found isLiteral
    rw [isLiteral]
    simp
  · rename_i noLiteral
    exact ⟨nofun, fun same => (noLiteral _ same.1).elim⟩

theorem Token.symbol_eq_operator_iff {token : Token} {sign : Operator} :
    token.symbol = .mark (.operator sign) ↔ token.kind = .operator sign :=
  Token.symbol_eq_mark_iff nofun

theorem Token.symbol_eq_delimiter_iff {token : Token} {mark : Delimiter} :
    token.symbol = .mark mark.kind ↔ token.kind = mark.kind := by
  cases mark <;> exact Token.symbol_eq_mark_iff nofun

/-- The levels of the operators that go on with a phrase. -/
def Phrase.Continues : Phrase → Level → Prop
  | .operand, _ => False
  | .chain .power, level => level = .power
  | .chain .product, level => level ≠ .sum
  | .chain .sum, _ | .arguments _, _ => True

/-- A phrase ends in front of a symbol unless that is an operator that goes on with it. -/
def Phrase.Ends (phrase : Phrase) (next : Option Symbol) : Prop :=
  ∀ sign : Operator, next = some (.mark (.operator sign)) → ¬phrase.Continues sign.level

namespace Phrase

theorem ends_none (phrase : Phrase) : phrase.Ends none :=
  nofun

theorem ends_operand (next : Option Symbol) : operand.Ends next :=
  fun _ _ => id

theorem ends_delimiter (phrase : Phrase) (mark : Delimiter) :
    phrase.Ends (some (.mark mark.kind)) := by
  intro sign same
  cases mark <;> cases same

theorem ends_of_no_operator (phrase : Phrase) {rest : List Token}
    (ended : ∀ token ∈ rest.head?, ∀ sign, token.kind ≠ .operator sign) :
    phrase.Ends (rest.head?.map Token.symbol) := by
  intro sign same
  obtain ⟨token, next, symbol⟩ := Option.map_eq_some_iff.mp same
  exact absurd (Token.symbol_eq_operator_iff.mp symbol) (ended token next sign)

theorem no_operator_of_ends {rest : List Token}
    (ends : (chain .sum).Ends (rest.head?.map Token.symbol)) :
    ∀ token ∈ rest.head?, ∀ sign, token.kind ≠ .operator sign := by
  intro token next sign kind
  refine ends sign ?_ trivial
  rw [Option.mem_def.mp next]
  exact congrArg some (Token.symbol_eq_operator_iff.mpr kind)

theorem continues_level (level : Level) : (chain level).Continues level := by
  cases level <;> simp [Continues]

/-- What goes on with an operand of a chain goes on with the chain. -/
theorem ends_part {whole part : Level} (joins : whole.Joins part) {next : Option Symbol}
    (ends : (chain whole).Ends next) : (chain part).Ends next := by
  intro sign same continues
  refine ends sign same ?_
  cases joins with
  | product => rw [show sign.level = .power from continues]; nofun
  | sum => trivial

/-- The operators between the operands of a chain do not go on with the operands. -/
theorem ends_part_sign {whole part : Level} (joins : whole.Joins part) {sign : Operator}
    (bound : sign.level = whole) : (chain part).Ends (some (.mark (.operator sign))) := by
  intro other same
  obtain rfl := Kind.operator.inj (Symbol.mark.inj (Option.some.inj same))
  rw [bound]
  cases joins <;> simp [Continues]

end Phrase

theorem Cursor.operator?_of_kind (level : Level) {token : Token} {sign : Operator} (index : Nat)
    (rest : List Token) (kind : token.kind = .operator sign) (bound : sign.level = level) :
    Cursor.operator? level ⟨index, token :: rest⟩ = some (sign, ⟨index + 1, rest⟩) := by
  simp only [Cursor.operator?, kind, bound, if_true]

theorem Cursor.operator?_of_ends {level : Level} {rest : List Token} (index : Nat)
    (ends : (Phrase.chain level).Ends (rest.head?.map Token.symbol)) :
    Cursor.operator? level ⟨index, rest⟩ = none := by
  cases rest with
  | nil => rfl
  | cons token rest =>
      simp only [Cursor.operator?]
      split
      · rename_i sign kind
        refine if_neg fun bound => ?_
        have symbol : token.symbol = .mark (.operator sign) := Token.symbol_eq_operator_iff.mpr kind
        exact ends sign (congrArg some symbol) (bound ▸ Phrase.continues_level level)
      · rfl

theorem Delimiter.comes_or_refused (mark : Delimiter) (rest : List Token) :
    (∃ token later, rest = token :: later ∧ token.kind = mark.kind) ∨
      ∀ token ∈ rest.head?, token.kind ≠ mark.kind := by
  cases rest with
  | nil => exact .inr nofun
  | cons token later =>
      by_cases kind : token.kind = mark.kind
      · exact .inl ⟨token, later, rfl, kind⟩
      · refine .inr fun other next => ?_
        obtain rfl := Option.some.inj next
        exact kind

theorem Cursor.expect_of_kind {mark : Delimiter} {token : Token} (index : Nat) (rest : List Token)
    (kind : token.kind = mark.kind) :
    Cursor.expect mark ⟨index, token :: rest⟩ = .ok ⟨index + 1, rest⟩ :=
  if_pos kind

theorem Cursor.expect_of_refused {mark : Delimiter} {rest : List Token} (index : Nat)
    (refused : ∀ token ∈ rest.head?, token.kind ≠ mark.kind) :
    Cursor.expect mark ⟨index, rest⟩ =
      .error ⟨.unexpected (.delimiter mark) (rest.head?.map Token.text), index⟩ := by
  cases rest with
  | nil => rfl
  | cons token rest => exact if_neg (refused token rfl)

/-- Operands are put in front of those already read. -/
theorem Reader.exponents_eq (operand : Reader Value) (earlier : List (Nat × Value))
    (cursor : Cursor) :
    operand.exponents earlier cursor = (do
      let (others, after) ← operand.exponents [] cursor
      return (others ++ earlier, after)) := by
  generalize size : cursor.rest.length = length
  induction length using Nat.strongRecOn generalizing earlier cursor with
  | ind length induction =>
      cases found : cursor.operator? .power with
      | none =>
          rw [operand.exponents_of_none earlier found, operand.exponents_of_none [] found]
          rfl
      | some sign =>
          rw [operand.exponents_of_some earlier found, operand.exponents_of_some [] found]
          cases reading : operand.run sign.2 with
          | error => rfl
          | ok next =>
              have signLength := Cursor.length_of_operator? found
              have nextLength := operand.shortens reading
              have shorter : next.2.rest.length < length := by omega
              dsimp only [bind, Except.bind]
              rw [induction _ shorter ((cursor.index, next.1) :: earlier) next.2 rfl,
                induction _ shorter [(cursor.index, next.1)] next.2 rfl]
              cases operand.exponents [] next.2 with
              | error => rfl
              | ok others =>
                  dsimp only [bind, Except.bind, pure, Except.pure]
                  rw [List.append_assoc, List.singleton_append]

/-- The index on the left of an operand is the one for its power, so that the operand behind the
first one takes over its place in the chain of the others. -/
theorem raiseOnto_append (first exponent : Value) (index : Nat) (others : List (Nat × Value))
    (baseIndex : Nat) (base : Value) :
    raiseOnto first exponent index (others ++ [(baseIndex, base)]) = (do
      let power ← raiseOnto base exponent index others
      (first.pow power).mapError (⟨.fault ·, baseIndex⟩)) := by
  induction others generalizing exponent index with
  | nil =>
      rw [List.nil_append, raiseOnto, raiseOnto]
      cases base.pow exponent with
      | error => rfl
      | ok power =>
          dsimp only [bind, Except.bind, raiseOnto]
          cases first.pow power <;> rfl
  | cons next others induction =>
      rw [List.cons_append, raiseOnto, raiseOnto]
      cases next.2.pow exponent with
      | error => rfl
      | ok power => exact induction power next.1

theorem raiseAll_append (first : Value) (others : List (Nat × Value)) (index : Nat)
    (base : Value) :
    raiseAll first (others ++ [(index, base)]) = (do
      let exponent ← raiseAll base others
      (first.pow exponent).mapError (⟨.fault ·, index⟩)) := by
  cases others with
  | nil =>
      dsimp only [List.nil_append, raiseAll, raiseOnto, bind, Except.bind]
      cases first.pow base <;> rfl
  | cons last others => exact raiseOnto_append first last.2 last.1 others index base

theorem Reader.run_powers (operand : Reader Value) (cursor : Cursor) :
    operand.powers.run cursor = (do
      let (base, after) ← operand.run cursor
      match after.operator? .power with
      | none => return (base, after)
      | some (_, afterSign) =>
        let (exponent, last) ← operand.powers.run afterSign
        let power ← (base.pow exponent).mapError (⟨.fault ·, after.index⟩)
        return (power, last)) := by
  simp only [Reader.powers]
  cases operand.run cursor with
  | error => rfl
  | ok base =>
      dsimp only [bind, Except.bind]
      cases found : base.2.operator? .power with
      | none =>
          rw [operand.exponents_of_none [] found]
          rfl
      | some sign =>
          obtain ⟨sign, afterSign⟩ := sign
          rw [operand.exponents_of_some [] found]
          dsimp only [bind, Except.bind]
          cases operand.run afterSign with
          | error => rfl
          | ok next =>
              dsimp only [bind, Except.bind]
              rw [operand.exponents_eq]
              cases operand.exponents [] next.2 with
              | error => rfl
              | ok others =>
                  dsimp only [bind, Except.bind, pure, Except.pure]
                  rw [raiseAll_append]
                  cases raiseAll next.1 others.1 <;> rfl

/-- The reader for the arguments of a call, if calls may be nested deeper. -/
def Reader.within : (room : Nat) → Option (Reader Value)
  | 0 => none
  | room + 1 => some (Reader.nested room)

theorem Reader.nested_eq (room : Nat) : Reader.nested room = Reader.sum (Reader.within room) := by
  cases room <;> rfl

/-- The reader for the operands of a chain. -/
def Level.operands (room : Nat) : Level → Reader Value
  | .power => Reader.operand (Reader.within room)
  | .product => Reader.power (Reader.within room)
  | .sum => Reader.product (Reader.within room)

namespace Phrase

/-- Reads a phrase whose calls may be nested so many deep. -/
def read (room : Nat) : (phrase : Phrase) → Cursor → Except EvalError (phrase.Meaning × Cursor)
  | operand => readOperand (Reader.within room)
  | chain .power => (Level.operands room .power).powers.run
  | chain .product => ((Level.operands room .product).chain .product).run
  | chain .sum => ((Level.operands room .sum).chain .sum).run
  | arguments count => (Reader.nested room).arguments count

/-- Goes on reading after a part of a phrase. -/
def resume (room : Nat) : (phrase : Phrase) → phrase.Meaning → Cursor →
    Except EvalError (phrase.Meaning × Cursor)
  | chain level, left, cursor => (level.operands room).extend level left cursor
  | operand, value, cursor => .ok (value, cursor)
  | arguments _, values, cursor => .ok (values, cursor)

/-- The phrase that has to end before the loop of a phrase looks for the next operator. -/
def last : Phrase → Phrase
  | chain .product => chain .power
  | chain .sum => chain .product
  | phrase => phrase

theorem last_of_joins {whole part : Level} (joins : whole.Joins part) :
    (chain whole).last = chain part := by
  cases joins <;> rfl

theorem ends_last {phrase : Phrase} {next : Option Symbol} (ends : phrase.Ends next) :
    phrase.last.Ends next := by
  rcases phrase with _ | (_ | _ | _) | _
  · exact ends
  · exact ends_part .sum ends
  · exact ends_part .product ends
  · exact ends
  · exact ends

theorem resume_of_ends (phrase : Phrase) {rest : List Token} (room index : Nat)
    (value : phrase.Meaning) (ends : phrase.Ends (rest.head?.map Token.symbol)) :
    phrase.resume room value ⟨index, rest⟩ = .ok (value, ⟨index, rest⟩) := by
  cases phrase with
  | operand => rfl
  | chain level => exact Reader.extend_of_none _ value (Cursor.operator?_of_ends index ends)
  | arguments count => rfl

theorem read_chain {whole part : Level} (joins : whole.Joins part) (room : Nat) (cursor : Cursor) :
    (chain whole).read room cursor = (do
      let (left, after) ← (chain part).read room cursor
      (chain whole).resume room left after) := by
  cases joins <;> rfl

theorem resume_chain {whole part : Level} (joins : whole.Joins part) {room : Nat} (left : Value)
    {cursor afterSign : Cursor} {sign : Operator}
    (found : cursor.operator? whole = some (sign, afterSign)) :
    (chain whole).resume room left cursor = (do
      let (right, after) ← (chain part).read room afterSign
      let result ← (sign.apply left right).mapError (⟨.fault ·, cursor.index⟩)
      (chain whole).resume room result after) := by
  cases joins <;> exact Reader.extend_of_some _ left found

theorem read_power (room : Nat) (cursor : Cursor) :
    (chain .power).read room cursor = (do
      let (base, after) ← operand.read room cursor
      match after.operator? .power with
      | none => return (base, after)
      | some (_, afterSign) =>
        let (exponent, last) ← (chain .power).read room afterSign
        let power ← (base.pow exponent).mapError (⟨.fault ·, after.index⟩)
        return (power, last)) :=
  Reader.run_powers _ cursor

theorem read_arguments_one (room : Nat) (cursor : Cursor) :
    (arguments 1).read room cursor = (do
      let (value, after) ← (chain .sum).read room cursor
      return (#v[value], after)) := by
  simp only [read, Reader.arguments, Reader.nested_eq]
  rfl

theorem read_arguments_more (room count : Nat) (cursor : Cursor) :
    (arguments (count + 2)).read room cursor = (do
      let (values, afterValues) ← (arguments (count + 1)).read room cursor
      let afterComma ← afterValues.expect .comma
      let (value, after) ← (chain .sum).read room afterComma
      return (values.push value, after)) := by
  simp only [read, Reader.arguments, Reader.nested_eq]
  rfl

theorem read_name {name : Token} {function : Builtin} (room index : Nat) (rest : List Token)
    (called : name.symbol = .literal .identifier function.name) :
    operand.read room ⟨index, name :: rest⟩ =
      readCall (Reader.within room) function index ⟨index + 1, rest⟩ := by
  obtain ⟨kind, text⟩ := Token.symbol_eq_literal_iff.mp called
  simp only [read, readOperand, kind, text, Builtin.ofName?_name]

theorem read_call {name opening : Token} {function : Builtin} (room index : Nat)
    (rest : List Token) (called : name.symbol = .literal .identifier function.name)
    (opens : opening.kind = Delimiter.kind .leftParen) :
    operand.read (room + 1) ⟨index, name :: opening :: rest⟩ = (do
      let (values, afterValues) ← (arguments function.arity).read room ⟨index + 2, rest⟩
      let closed ← afterValues.expect .rightParen
      let value ← (function.call values).mapError (⟨.fault ·, index⟩)
      return (value, closed)) := by
  rw [read_name _ _ _ called, readCall, Cursor.expect_of_kind _ _ opens]
  rfl

theorem read_call_zero {name opening : Token} {function : Builtin} (index : Nat)
    (rest : List Token) (called : name.symbol = .literal .identifier function.name)
    (opens : opening.kind = Delimiter.kind .leftParen) :
    operand.read 0 ⟨index, name :: opening :: rest⟩ = .error ⟨.nestingTooDeep, index⟩ := by
  rw [read_name _ _ _ called, readCall, Cursor.expect_of_kind _ _ opens]
  rfl

end Phrase

theorem evaluate_eq_read (tokens : List Token) :
    evaluate tokens = ((Phrase.chain .sum).read maxNesting ⟨0, tokens⟩).map Prod.fst := by
  rw [evaluate, Reader.nested_eq]
  rfl

end Calculator
