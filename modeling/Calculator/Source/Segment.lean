import Calculator.Source.Blank
import Calculator.Token.Kind

/-!
# Segments of a source text

A source text is cut from left to right into blanks, comments and lexemes, each as long as it can
be.  The cut at one character sees the rest of the text and takes from it whatever continues the
segment, so the texts of the segments in order are the source.
-/

namespace Calculator

/-- A piece of source text. -/
inductive Segment
  /-- One blank character. -/
  | blank (character : Char)
  /-- A number sign with everything before the end of the line. -/
  | comment (body : List Char)
  /-- The characters of one token. -/
  | lexeme (kind : Kind) (text : List Char)
  deriving DecidableEq, Repr

namespace Segment

/-- The characters of a segment. -/
def text : Segment → List Char
  | blank character => [character]
  | comment body => '#' :: body
  | lexeme _ text => text

/-- Characters that begin a word. -/
def isWordStart (character : Char) : Bool :=
  character.isAlpha || character = '_'

/-- Characters that continue a word. -/
def isWordPart (character : Char) : Bool :=
  character.isAlphanum || character = '_'

/-- A word is a keyword or an identifier. -/
def wordKind (word : List Char) : Kind :=
  match Keyword.ofWord? (String.ofList word) with
  | some keyword => .keyword keyword
  | none => .literal .identifier

/-- Splits off a point with the digits after it; a point without digits stays. -/
def splitFraction : List Char → List Char × List Char
  | '.' :: rest =>
    match rest.takeWhile Char.isDigit with
    | [] => ([], '.' :: rest)
    | digit :: digits => ('.' :: digit :: digits, rest.dropWhile Char.isDigit)
  | source => ([], source)

/-- The numeral at the front of a text, if there is one, with the rest of the text: digits, or
digits and a fraction, or a fraction alone. -/
def splitNumeral? (source : List Char) : Option (Segment × List Char) :=
  let whole := source.takeWhile Char.isDigit
  let (fraction, rest) := splitFraction (source.dropWhile Char.isDigit)
  if fraction ≠ [] then some (lexeme (.literal .float) (whole ++ fraction), rest)
  else if whole ≠ [] then some (lexeme (.literal .integer) whole, rest)
  else none

/-- The segment that begins with a character, and the text after it. -/
def cut (first : Char) (rest : List Char) : Segment × List Char :=
  if isBlank first then
    (blank first, rest)
  else if first = '#' then
    (comment (rest.takeWhile (· ≠ '\n')), rest.dropWhile (· ≠ '\n'))
  else if let some kind := Kind.ofChar? first then
    (lexeme kind [first], rest)
  else if isWordStart first then
    let word := first :: rest.takeWhile isWordPart
    (lexeme (wordKind word) word, rest.dropWhile isWordPart)
  else
    (splitNumeral? (first :: rest)).getD (lexeme (.special .unknown) [first], rest)

theorem splitFraction_append (source : List Char) :
    (splitFraction source).1 ++ (splitFraction source).2 = source := by
  fun_cases splitFraction source with
  | case1 rest noDigits => simp
  | case2 rest digit digits someDigits =>
      simpa [someDigits] using List.takeWhile_append_dropWhile (p := Char.isDigit) (l := rest)
  | case3 source _ => simp

theorem splitNumeral?_append {source rest : List Char} {numeral : Segment}
    (split : splitNumeral? source = some (numeral, rest)) :
    numeral.text ++ rest = source ∧ numeral.text ≠ [] := by
  have whole := List.takeWhile_append_dropWhile (p := Char.isDigit) (l := source)
  have fraction := splitFraction_append (source.dropWhile Char.isDigit)
  rw [← fraction] at whole
  simp only [splitNumeral?] at split
  split at split
  · obtain ⟨rfl, rfl⟩ := Prod.mk.inj (Option.some.inj split)
    simp_all [text]
  split at split
  · rename_i noFraction someDigits
    obtain ⟨rfl, rfl⟩ := Prod.mk.inj (Option.some.inj split)
    simp_all [text]
  · simp at split

/-- A cut splits the text into the segment and what follows it. -/
theorem cut_append (first : Char) (rest : List Char) :
    (cut first rest).1.text ++ (cut first rest).2 = first :: rest := by
  fun_cases cut first rest with
  | case1 | case3 => simp [text]
  | case2 _ sign => simp [text, sign, List.takeWhile_append_dropWhile]
  | case4 _ _ _ word =>
      exact congrArg (first :: ·) (List.takeWhile_append_dropWhile (p := isWordPart) (l := rest))
  | case5 =>
      cases numeral : splitNumeral? (first :: rest) with
      | none => simp [text]
      | some split => exact (splitNumeral?_append numeral).1

theorem cut_text_ne_nil (first : Char) (rest : List Char) : (cut first rest).1.text ≠ [] := by
  fun_cases cut first rest with
  | case1 | case2 | case3 | case4 => simp [text]
  | case5 =>
      cases numeral : splitNumeral? (first :: rest) with
      | none => simp [text]
      | some split => exact (splitNumeral?_append numeral).2

theorem length_cut_lt (first : Char) (rest : List Char) :
    (cut first rest).2.length < (first :: rest).length := by
  have whole := congrArg List.length (cut_append first rest)
  have nonempty := List.length_pos_iff.mpr (cut_text_ne_nil first rest)
  rw [List.length_append] at whole
  omega

/-- Cuts a text and puts its segments after those already cut, which come last first. -/
def cutOnto (earlier : List Segment) : List Char → List Segment
  | [] => earlier.reverse
  | first :: rest => cutOnto ((cut first rest).1 :: earlier) (cut first rest).2
termination_by source => source.length
decreasing_by exact length_cut_lt first rest

/-- The segments of a source text, in order. -/
def segments (source : List Char) : List Segment :=
  cutOnto [] source

theorem cutOnto_append (later earlier : List Segment) (source : List Char) :
    cutOnto (later ++ earlier) source = earlier.reverse ++ cutOnto later source := by
  fun_induction cutOnto later source with
  | case1 later => simp [cutOnto]
  | case2 later first rest induction =>
      rw [cutOnto]
      exact induction

@[simp]
theorem segments_nil : segments [] = [] := by
  simp [segments, cutOnto]

theorem segments_cons (first : Char) (rest : List Char) :
    segments (first :: rest) = (cut first rest).1 :: segments (cut first rest).2 := by
  rw [segments, cutOnto]
  exact cutOnto_append [] [(cut first rest).1] (cut first rest).2

/-- The segments in order spell the source. -/
theorem flatMap_text_segments (source : List Char) : (segments source).flatMap text = source := by
  generalize size : source.length = length
  induction length using Nat.strongRecOn generalizing source with
  | ind length induction =>
      cases source with
      | nil => simp
      | cons first rest =>
          rw [segments_cons, List.flatMap_cons, induction _ (size ▸ length_cut_lt first rest) _ rfl]
          exact cut_append first rest

end Segment
end Calculator
