import Calculator.Token.Basic

/-!
# Token tables

A table has a header and one row for each token but the end marker.  Kind and text are set to the
left of their columns and the numbers to the right; a cell that is too long widens its row.
-/

namespace Calculator
namespace Token

/-- One line of a table. -/
def tableLine (kind text line column : List Char) : List Char :=
  kind.rightpad 12 ' ' ++ ' ' :: text.rightpad 16 ' ' ++ ' ' :: line.leftpad 5 ' ' ++
    ' ' :: column.leftpad 6 ' ' ++ ['\n']

/-- The names of the columns. -/
def tableHeader : List Char :=
  tableLine "KIND".toList "TEXT".toList "LINE".toList "COLUMN".toList

/-- The row of a token. -/
def tableRow (token : Token) : List Char :=
  tableLine token.kind.name.toList token.text.toList (Numeral.ofNat token.position.line)
    (Numeral.ofNat token.position.column)

/-- The table of a token list.  End markers have no row. -/
def table (tokens : List Token) : List Char :=
  tableHeader ++ (tokens.filter (·.kind ≠ .special .endOfInput)).flatMap tableRow

end Token
end Calculator
