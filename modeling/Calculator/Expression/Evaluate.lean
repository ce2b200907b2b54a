import Calculator.Expression.Chain
import Calculator.Numeral.Decimal

/-!
# Evaluation

Expressions are evaluated while they are read.  A sum is a chain of products, a product a chain of
powers and a power a chain of operands.  An operand is a literal or a call, and the arguments of a
call are again sums, with room for one call less.
-/

namespace Calculator

/-- The value of an integer literal; a text that is not an integer counts as too large. -/
def integerLiteral (text : String) : Except Cause Value :=
  match Numeral.toInt? text.toList with
  | some n => (Value.ofInt n).mapError .fault
  | none => .error (.fault .overflow)

/-- The value of a float literal. -/
def floatLiteral (text : String) : Except Cause Value :=
  match Numeral.toFloat? text.toList with
  | some x => .ok (.float x)
  | none => .error (.unexpected .expression (some text))

/-- Reads a number of arguments with a comma before each but the first. -/
def Reader.arguments (argument : Reader Value) :
    (count : Nat) → Cursor → Except EvalError (Vector Value count × Cursor)
  | 0, cursor => .ok (#v[], cursor)
  | 1, cursor => do
    let (value, after) ← argument.run cursor
    return (#v[value], after)
  | count + 2, cursor => do
    let (values, afterValues) ← argument.arguments (count + 1) cursor
    let afterComma ← afterValues.expect .comma
    let (value, after) ← argument.run afterComma
    return (values.push value, after)

/-- Reads the arguments of a function from the opening parenthesis on and applies the function to
them.  Without a reader for arguments the call is too deep.  The index is that of the name. -/
def readCall (argument : Option (Reader Value)) (function : Builtin) (index : Nat)
    (cursor : Cursor) : Except EvalError (Value × Cursor) := do
  let opened ← cursor.expect .leftParen
  match argument with
  | none => throw ⟨.nestingTooDeep, index⟩
  | some argument =>
    let (values, afterValues) ← argument.arguments function.arity opened
    let closed ← afterValues.expect .rightParen
    let value ← (function.call values).mapError (⟨.fault ·, index⟩)
    return (value, closed)

/-- Reads a literal or a call. -/
def readOperand (argument : Option (Reader Value)) : Cursor → Except EvalError (Value × Cursor)
  | ⟨index, []⟩ => .error ⟨.endOfTokens, index⟩
  | ⟨index, token :: rest⟩ =>
    match token.kind with
    | .literal .integer => do
      let value ← (integerLiteral token.text).mapError (⟨·, index⟩)
      return (value, ⟨index + 1, rest⟩)
    | .literal .float => do
      let value ← (floatLiteral token.text).mapError (⟨·, index⟩)
      return (value, ⟨index + 1, rest⟩)
    | .literal .identifier =>
      match Builtin.ofName? token.text with
      | some function => readCall argument function index ⟨index + 1, rest⟩
      | none => .error ⟨.unknownName token.text, index⟩
    | _ => .error ⟨.unexpected .expression (some token.text), index⟩

theorem Reader.length_of_arguments {argument : Reader Value} {count : Nat} {before after : Cursor}
    {values : Vector Value count} (result : argument.arguments count before = .ok (values, after)) :
    after.rest.length ≤ before.rest.length := by
  fun_induction Reader.arguments argument count before generalizing after with
  | case1 => cases result; exact Nat.le_refl _
  | case2 before =>
      obtain ⟨read, reading, returned⟩ := bind_eq_ok_iff.mp result
      cases returned
      exact Nat.le_of_lt (argument.shortens reading)
  | case3 before count induction =>
      obtain ⟨earlier, earlierRead, afterEarlier⟩ := bind_eq_ok_iff.mp result
      obtain ⟨comma, commaRead, afterComma⟩ := bind_eq_ok_iff.mp afterEarlier
      obtain ⟨read, reading, returned⟩ := bind_eq_ok_iff.mp afterComma
      cases returned
      have earlierLength := induction earlierRead
      have commaLength := Cursor.length_of_expect commaRead
      have lastLength := argument.shortens reading
      omega

theorem length_of_readCall {argument : Option (Reader Value)} {function : Builtin} {index : Nat}
    {before after : Cursor} {value : Value}
    (result : readCall argument function index before = .ok (value, after)) :
    after.rest.length < before.rest.length := by
  obtain ⟨opened, openedRead, afterOpened⟩ := bind_eq_ok_iff.mp result
  have openedLength := Cursor.length_of_expect openedRead
  cases argument with
  | none => cases afterOpened
  | some argument =>
      obtain ⟨values, valuesRead, afterValues⟩ := bind_eq_ok_iff.mp afterOpened
      obtain ⟨closed, closedRead, afterClosed⟩ := bind_eq_ok_iff.mp afterValues
      obtain ⟨_, _, returned⟩ := bind_eq_ok_iff.mp afterClosed
      cases returned
      have valuesLength : values.2.rest.length ≤ opened.rest.length :=
        Reader.length_of_arguments valuesRead
      have closedLength := Cursor.length_of_expect closedRead
      omega

theorem length_of_readOperand {argument : Option (Reader Value)} {before after : Cursor}
    {value : Value} (result : readOperand argument before = .ok (value, after)) :
    after.rest.length < before.rest.length := by
  revert result
  fun_cases readOperand argument before with
  | case1 => nofun
  | case2 index token rest | case3 index token rest =>
      intro result
      obtain ⟨_, _, returned⟩ := bind_eq_ok_iff.mp result
      cases returned
      exact Nat.lt_succ_self _
  | case4 index token rest identifier function =>
      intro result
      exact Nat.lt_succ_of_lt (length_of_readCall result)
  | case5 => nofun
  | case6 => nofun

/-- Reads a literal or a call whose arguments are read by the given reader. -/
def Reader.operand (argument : Option (Reader Value)) : Reader Value :=
  ⟨readOperand argument, length_of_readOperand⟩

/-- Reads a power. -/
def Reader.power (argument : Option (Reader Value)) : Reader Value :=
  (Reader.operand argument).powers

/-- Reads a product. -/
def Reader.product (argument : Option (Reader Value)) : Reader Value :=
  (Reader.power argument).chain .product

/-- Reads a sum. -/
def Reader.sum (argument : Option (Reader Value)) : Reader Value :=
  (Reader.product argument).chain .sum

/-- Reads a sum whose calls are nested at most so many deep. -/
def Reader.nested : (room : Nat) → Reader Value
  | 0 => Reader.sum none
  | room + 1 => Reader.sum (some (Reader.nested room))

/-- The value of the longest expression at the front of a token list; the tokens after it do not
matter. -/
def evaluate (tokens : List Token) : Except EvalError Value :=
  ((Reader.nested maxNesting).run ⟨0, tokens⟩).map Prod.fst

end Calculator
