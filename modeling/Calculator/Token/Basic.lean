import Calculator.Numeral.Integer
import Calculator.Source.Position
import Calculator.Token.Kind

/-!
# Tokens

A token is a kind, the text it was read from and the position of the first character of that text.
-/

namespace Calculator

/-- A lexeme with its kind and place. -/
structure Token where
  /-- What the token is. -/
  kind : Kind
  /-- The characters it was read from. -/
  text : String
  /-- Where its first character stands. -/
  position : Position
  deriving DecidableEq, Repr

namespace Token

/-- The marker that closes every token list. -/
def endMarker (position : Position) : Token :=
  ⟨.special .endOfInput, Kind.name (.special .endOfInput), position⟩

/-- The characters of the written form of a token: kind, quoted text, line and column. -/
def rendering (token : Token) : List Char :=
  "Token(type=".toList ++ token.kind.name.toList ++ ", value='".toList ++ token.text.toList ++
    "', position=(".toList ++ Numeral.ofNat token.position.line ++ ", ".toList ++
    Numeral.ofNat token.position.column ++ "))".toList

/-- The written form of a token. -/
def render (token : Token) : String :=
  String.ofList token.rendering

end Token
end Calculator
