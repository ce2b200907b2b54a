import Calculator.Expression.Evaluate

/-!
# Expression trees

The grammar of expressions as a family of trees, one type for each kind of phrase.  A tree is
spelled by symbols, which is what evaluation sees of tokens, and has a meaning that is defined on
the tree alone: parts from left to right, each before the operation on it.
-/

namespace Calculator

/-- What evaluation sees of a token: the text counts only in literals and names. -/
inductive Symbol
  | literal (form : Literal) (text : String)
  | mark (kind : Kind)
  deriving DecidableEq, Repr

/-- The symbol of a token. -/
def Token.symbol (token : Token) : Symbol :=
  match token.kind with
  | .literal form => .literal form token.text
  | kind => .mark kind

/-- Levels whose operators group from the left, each with the level of its operands. -/
inductive Level.Joins : (whole part : Level) → Prop
  | product : Joins .product .power
  | sum : Joins .sum .product

/-- The kinds of phrase. -/
inductive Phrase
  /-- A literal or a call. -/
  | operand
  /-- Operands of a level with its operators between them. -/
  | chain (level : Level)
  /-- Some sums with commas between them. -/
  | arguments (count : Nat)
  deriving DecidableEq, Repr

/-- What a phrase stands for. -/
abbrev Phrase.Meaning : Phrase → Type
  | arguments count => Vector Value count
  | _ => Value

/-- The phrases of a kind. -/
inductive Tree : Phrase → Type
  | integer (text : String) : Tree .operand
  | float (text : String) : Tree .operand
  | call (function : Builtin) (arguments : Tree (.arguments function.arity)) : Tree .operand
  | ofOperand (operand : Tree .operand) : Tree (.chain .power)
  /-- Powers group from the right. -/
  | raise (base : Tree .operand) (exponent : Tree (.chain .power)) : Tree (.chain .power)
  /-- A product of one power, or a sum of one product. -/
  | single {whole part : Level} (joins : whole.Joins part) (operand : Tree (.chain part)) :
    Tree (.chain whole)
  /-- Products and sums group from the left. -/
  | join {whole part : Level} (joins : whole.Joins part) (left : Tree (.chain whole))
    (sign : Operator) (bound : sign.level = whole) (right : Tree (.chain part)) :
    Tree (.chain whole)
  | one (argument : Tree (.chain .sum)) : Tree (.arguments 1)
  | more {count : Nat} (earlier : Tree (.arguments (count + 1))) (last : Tree (.chain .sum)) :
    Tree (.arguments (count + 2))

namespace Tree

/-- The symbols that spell a tree. -/
def symbols {phrase : Phrase} : Tree phrase → List Symbol
  | integer text => [.literal .integer text]
  | float text => [.literal .float text]
  | call function arguments =>
    .literal .identifier function.name :: .mark (Delimiter.kind .leftParen) ::
      arguments.symbols ++ [.mark (Delimiter.kind .rightParen)]
  | ofOperand operand => operand.symbols
  | raise base exponent => base.symbols ++ .mark (.operator .power) :: exponent.symbols
  | single _ operand => operand.symbols
  | join _ left sign _ right => left.symbols ++ .mark (.operator sign) :: right.symbols
  | one argument => argument.symbols
  | more earlier last => earlier.symbols ++ .mark (Delimiter.kind .comma) :: last.symbols

/-- The greatest number of calls inside one another. -/
def depth {phrase : Phrase} : Tree phrase → Nat
  | integer _ | float _ => 0
  | call _ arguments => arguments.depth + 1
  | ofOperand operand => operand.depth
  | raise base exponent => max base.depth exponent.depth
  | single _ operand => operand.depth
  | join _ left _ _ right => max left.depth right.depth
  | one argument => argument.depth
  | more earlier last => max earlier.depth last.depth

/-- What a tree stands for, or the first failure on the way.  The tree is spelled from the token at
the given index on, and its calls may be nested so many deep. -/
def eval {phrase : Phrase} : Tree phrase → (room index : Nat) → Except EvalError phrase.Meaning
  | integer text, _, index => (integerLiteral text).mapError (⟨·, index⟩)
  | float text, _, index => (floatLiteral text).mapError (⟨·, index⟩)
  | call _ _, 0, index => .error ⟨.nestingTooDeep, index⟩
  | call function arguments, room + 1, index => do
    let values ← arguments.eval room (index + 2)
    (function.call values).mapError (⟨.fault ·, index⟩)
  | ofOperand operand, room, index => operand.eval room index
  | raise base exponent, room, index => do
    let left ← base.eval room index
    let sign := index + base.symbols.length
    let right ← exponent.eval room (sign + 1)
    (left.pow right).mapError (⟨.fault ·, sign⟩)
  | single _ operand, room, index => operand.eval room index
  | join _ first operator _ second, room, index => do
    let left ← first.eval room index
    let sign := index + first.symbols.length
    let right ← second.eval room (sign + 1)
    (operator.apply left right).mapError (⟨.fault ·, sign⟩)
  | one argument, room, index => do
    let value ← argument.eval room index
    return #v[value]
  | more earlier last, room, index => do
    let values ← earlier.eval room index
    let value ← last.eval room (index + earlier.symbols.length + 1)
    return values.push value

end Tree
end Calculator
