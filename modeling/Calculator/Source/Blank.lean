/-!
# Blank characters

The characters with the Unicode property White_Space.  They separate lexemes and carry no meaning.
-/

namespace Calculator

/-- The code points with the property White_Space, as inclusive ranges. -/
def blankRanges : List (Nat × Nat) :=
  [(0x0009, 0x000D), (0x0020, 0x0020), (0x0085, 0x0085), (0x00A0, 0x00A0), (0x1680, 0x1680),
    (0x2000, 0x200A), (0x2028, 0x2029), (0x202F, 0x202F), (0x205F, 0x205F), (0x3000, 0x3000)]

/-- Blank characters are those whose code point lies in one of the ranges. -/
def isBlank (character : Char) : Bool :=
  blankRanges.any fun (low, high) => low ≤ character.toNat && character.toNat ≤ high

end Calculator
