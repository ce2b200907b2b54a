/-!
# Token kinds

The kinds of token, grouped by category.  Keywords, comparisons and the semicolon have kinds of
their own although no expression uses them.
-/

namespace Calculator

/-- Reserved words. -/
inductive Keyword
  | function
  | external
  | ifWord
  | thenWord
  | elseWord
  | forWord
  | inWord
  deriving DecidableEq, Repr

/-- Tokens whose text carries meaning. -/
inductive Literal
  | integer
  | float
  | identifier
  deriving DecidableEq, Repr

/-- Binary arithmetic operators. -/
inductive Operator
  | plus
  | minus
  | multiply
  | divide
  | modulo
  | power
  deriving DecidableEq, Repr

/-- Comparison signs. -/
inductive Comparison
  | less
  | greater
  | equal
  | notEqual
  deriving DecidableEq, Repr

/-- Brackets and separators. -/
inductive Punctuation
  | leftParen
  | rightParen
  | comma
  | semicolon
  deriving DecidableEq, Repr

/-- The end marker, and characters that start no other token. -/
inductive Special
  | endOfInput
  | unknown
  deriving DecidableEq, Repr

/-- What a token is, apart from its text. -/
inductive Kind
  | keyword (word : Keyword)
  | literal (form : Literal)
  | operator (sign : Operator)
  | comparison (sign : Comparison)
  | punctuation (mark : Punctuation)
  | special (role : Special)
  deriving DecidableEq, Repr

/-- The words that cannot name anything. -/
def Keyword.ofWord? : String → Option Keyword
  | "def" => some .function
  | "extern" => some .external
  | "if" => some .ifWord
  | "then" => some .thenWord
  | "else" => some .elseWord
  | "for" => some .forWord
  | "in" => some .inWord
  | _ => none

namespace Kind

/-- The name of a kind in listings. -/
def name : Kind → String
  | keyword .function => "FUNCTION"
  | keyword .external => "EXTERN"
  | keyword .ifWord => "IF"
  | keyword .thenWord => "THEN"
  | keyword .elseWord => "ELSE"
  | keyword .forWord => "FOR"
  | keyword .inWord => "IN"
  | literal .integer => "INTEGER"
  | literal .float => "FLOAT"
  | literal .identifier => "IDENTIFIER"
  | operator .plus => "PLUS"
  | operator .minus => "MINUS"
  | operator .multiply => "MULTIPLY"
  | operator .divide => "DIVIDE"
  | operator .modulo => "MODULO"
  | operator .power => "POWER"
  | comparison .less => "LESS"
  | comparison .greater => "GREATER"
  | comparison .equal => "EQUAL"
  | comparison .notEqual => "NOT_EQUAL"
  | punctuation .leftParen => "LEFT_PAREN"
  | punctuation .rightParen => "RIGHT_PAREN"
  | punctuation .comma => "COMMA"
  | punctuation .semicolon => "SEMICOLON"
  | special .endOfInput => "END_OF_INPUT"
  | special .unknown => "UNKNOWN"

/-- The name of the category of a kind in listings. -/
def category : Kind → String
  | keyword _ => "Keyword"
  | literal _ => "Literal"
  | operator _ => "Operator"
  | comparison _ => "Comparison"
  | punctuation _ => "Punctuation"
  | special _ => "Special"

/-- Every kind, category by category. -/
def all : List Kind :=
  [.function, .external, .ifWord, .thenWord, .elseWord, .forWord, .inWord].map keyword ++
    [.integer, .float, .identifier].map literal ++
    [.plus, .minus, .multiply, .divide, .modulo, .power].map operator ++
    [.less, .greater, .equal, .notEqual].map comparison ++
    [.leftParen, .rightParen, .comma, .semicolon].map punctuation ++
    [.endOfInput, .unknown].map special

/-- The kind with the given name. -/
def ofName? (name : String) : Option Kind :=
  all.find? (·.name = name)

/-- The kinds of token that are written as one fixed character. -/
def ofChar? : Char → Option Kind
  | '+' => some (operator .plus)
  | '-' => some (operator .minus)
  | '*' => some (operator .multiply)
  | '/' => some (operator .divide)
  | '%' => some (operator .modulo)
  | '^' => some (operator .power)
  | '<' => some (comparison .less)
  | '>' => some (comparison .greater)
  | '=' => some (comparison .equal)
  | '(' => some (punctuation .leftParen)
  | ')' => some (punctuation .rightParen)
  | ',' => some (punctuation .comma)
  | ';' => some (punctuation .semicolon)
  | _ => none

theorem mem_all (kind : Kind) : kind ∈ all := by
  rcases kind with word | form | sign | sign | mark | role
  · cases word <;> simp [all]
  · cases form <;> simp [all]
  · cases sign <;> simp [all]
  · cases sign <;> simp [all]
  · cases mark <;> simp [all]
  · cases role <;> simp [all]

theorem ofName?_name (kind : Kind) : ofName? kind.name = some kind := by
  rcases kind with word | form | sign | sign | mark | role
  · cases word <;> rfl
  · cases form <;> rfl
  · cases sign <;> rfl
  · cases sign <;> rfl
  · cases mark <;> rfl
  · cases role <;> rfl

theorem name_injective {left right : Kind} (names : left.name = right.name) : left = right := by
  have found := ofName?_name left
  rw [names, ofName?_name right] at found
  exact (Option.some.inj found).symm

end Kind
end Calculator
