import Calculator.Source.Segment

/-!
# The lexical grammar

The texts of each kind of lexeme and what may stand behind them, without the order in which a source
is read.  Every lexeme is as long as it can be, which the grammar expresses by the characters that
must not follow it.
-/

namespace Calculator

/-- A text is the longest one at its place whose characters all belong to a class. -/
structure Run (member : Char → Bool) (text rest : List Char) : Prop where
  /-- The characters of the text belong to the class. -/
  all : ∀ character ∈ text, member character
  /-- The character behind the text does not. -/
  ends : ∀ character ∈ rest.head?, ¬member character

namespace Run

variable {member : Char → Bool} {text rest : List Char}

theorem takeWhile_eq (run : Run member text rest) : (text ++ rest).takeWhile member = text := by
  rw [List.takeWhile_append_of_pos run.all]
  cases rest with
  | nil => simp
  | cons first rest => simp [run.ends first rfl]

theorem dropWhile_eq (run : Run member text rest) : (text ++ rest).dropWhile member = rest := by
  rw [List.dropWhile_append_of_pos run.all]
  cases rest with
  | nil => rfl
  | cons first rest => simp [run.ends first rfl]

theorem takeWhile_dropWhile (member : Char → Bool) (source : List Char) :
    Run member (source.takeWhile member) (source.dropWhile member) where
  all := List.all_eq_true.mp List.all_takeWhile
  ends := by
    intro character next
    have behind := List.head?_dropWhile_not member source
    rw [next] at behind
    simpa using behind

end Run

/-- How a keyword is written. -/
def Keyword.spelling : Keyword → String
  | function => "def"
  | external => "extern"
  | ifWord => "if"
  | thenWord => "then"
  | elseWord => "else"
  | forWord => "for"
  | inWord => "in"

theorem Keyword.ofWord?_eq_some_iff {text : String} {word : Keyword} :
    ofWord? text = some word ↔ text = word.spelling := by
  constructor
  · intro found
    unfold ofWord? at found
    split at found <;> cases found <;> rfl
  · rintro rfl
    cases word <;> rfl

/-- The character that a sign of a kind is written as. -/
def Kind.character? : Kind → Option Char
  | operator .plus => some '+'
  | operator .minus => some '-'
  | operator .multiply => some '*'
  | operator .divide => some '/'
  | operator .modulo => some '%'
  | operator .power => some '^'
  | comparison .less => some '<'
  | comparison .greater => some '>'
  | comparison .equal => some '='
  | punctuation .leftParen => some '('
  | punctuation .rightParen => some ')'
  | punctuation .comma => some ','
  | punctuation .semicolon => some ';'
  | comparison .notEqual | keyword _ | literal _ | special _ => none

theorem Kind.ofChar?_eq_some_iff {character : Char} {kind : Kind} :
    ofChar? character = some kind ↔ kind.character? = some character := by
  constructor
  · intro found
    unfold ofChar? at found
    split at found <;> cases found <;> rfl
  · intro written
    unfold character? at written
    split at written <;> cases written <;> rfl

/-- A text starts with a point and a digit. -/
def BeginsFraction (text : List Char) : Prop :=
  ∃ digit later, text = '.' :: digit :: later ∧ digit.isDigit

/-- A text is a lexeme of a kind in front of another text, and it goes no further there. -/
inductive Lexeme : Kind → (text rest : List Char) → Prop
  /-- A word of the language. -/
  | keyword {word : Keyword} {rest : List Char}
    (ends : ∀ character ∈ rest.head?, ¬Segment.isWordPart character) :
    Lexeme (.keyword word) word.spelling.toList rest
  /-- Any other word. -/
  | identifier {first : Char} {parts rest : List Char} (start : Segment.isWordStart first)
    (run : Run Segment.isWordPart parts rest)
    (free : ∀ word : Keyword, first :: parts ≠ word.spelling.toList) :
    Lexeme (.literal .identifier) (first :: parts) rest
  /-- Digits without a fraction behind them. -/
  | integer {digits rest : List Char} (run : Run Char.isDigit digits rest)
    (nonempty : digits ≠ []) (whole : ¬BeginsFraction rest) :
    Lexeme (.literal .integer) digits rest
  /-- A point with digits behind it, and possibly digits in front. -/
  | float {whole fraction rest : List Char} (digits : ∀ character ∈ whole, character.isDigit)
    (run : Run Char.isDigit fraction rest) (nonempty : fraction ≠ []) :
    Lexeme (.literal .float) (whole ++ '.' :: fraction) rest
  /-- The character of a kind that is written as one. -/
  | sign {kind : Kind} {character : Char} {rest : List Char}
    (written : kind.character? = some character) : Lexeme kind [character] rest
  /-- A character without a place in any other lexeme, comment or gap. -/
  | unknown {character : Char} {rest : List Char} (visible : ¬isBlank character)
    (noComment : character ≠ '#') (noSign : ∀ kind : Kind, kind.character? ≠ some character)
    (noWord : ¬Segment.isWordPart character) (noFraction : ¬BeginsFraction (character :: rest)) :
    Lexeme (.special .unknown) [character] rest

/-- A segment can stand in front of a text: a comment goes on to the end of its line, and a lexeme
as far as its kind admits. -/
inductive Segment.Fits : Segment → List Char → Prop
  | blank {character : Char} {rest : List Char} (white : isBlank character) :
    (Segment.blank character).Fits rest
  | comment {body rest : List Char} (run : Run (· ≠ '\n') body rest) :
    (Segment.comment body).Fits rest
  | lexeme {kind : Kind} {text rest : List Char} (lexeme : Lexeme kind text rest) :
    (Segment.lexeme kind text).Fits rest

/-- A source is cut into segments that fit in front of one another. -/
inductive Cutting : List Char → List Segment → Prop
  | nil : Cutting [] []
  | cons {segment : Segment} {rest : List Char} {segments : List Segment} (fits : segment.Fits rest)
    (later : Cutting rest segments) : Cutting (segment.text ++ rest) (segment :: segments)

theorem isWordPart_eq (character : Char) :
    Segment.isWordPart character = (Segment.isWordStart character || character.isDigit) := by
  rw [Segment.isWordPart, Segment.isWordStart, Char.isAlphanum, Bool.or_right_comm]

theorem exists_digits {first : Char} (rest : List Char) (digit : first.isDigit) :
    ∃ digits later, digits ++ later = first :: rest ∧ Run Char.isDigit digits later ∧
      digits ≠ [] := by
  refine ⟨_, _, List.takeWhile_append_dropWhile, Run.takeWhile_dropWhile _ _, ?_⟩
  simp [digit]

/-- Digits with a fraction behind them, or a fraction alone, begin a lexeme. -/
theorem exists_lexeme_of_fraction {whole source : List Char}
    (digits : ∀ character ∈ whole, character.isDigit) (begins : BeginsFraction source) :
    ∃ text later, text ++ later = whole ++ source ∧ Lexeme (.literal .float) text later := by
  obtain ⟨digit, rest, rfl, isDigit⟩ := begins
  obtain ⟨fraction, later, split, run, nonempty⟩ := exists_digits rest isDigit
  refine ⟨whole ++ '.' :: fraction, later, ?_, .float digits run nonempty⟩
  rw [List.append_assoc, List.cons_append, split]

theorem exists_lexeme_of_digit {first : Char} (rest : List Char) (digit : first.isDigit) :
    ∃ kind text later, text ++ later = first :: rest ∧ Lexeme kind text later := by
  obtain ⟨digits, later, split, run, nonempty⟩ := exists_digits rest digit
  rw [← split]
  by_cases begins : BeginsFraction later
  · exact ⟨_, exists_lexeme_of_fraction run.all begins⟩
  · exact ⟨_, digits, later, rfl, .integer run nonempty begins⟩

theorem exists_lexeme_of_word {first : Char} (rest : List Char)
    (start : Segment.isWordStart first) :
    ∃ kind text later, text ++ later = first :: rest ∧ Lexeme kind text later := by
  have run := Run.takeWhile_dropWhile Segment.isWordPart rest
  have split : (first :: rest.takeWhile Segment.isWordPart) ++ rest.dropWhile Segment.isWordPart =
      first :: rest := congrArg (first :: ·) List.takeWhile_append_dropWhile
  by_cases reserved : ∃ word : Keyword,
      first :: rest.takeWhile Segment.isWordPart = word.spelling.toList
  · obtain ⟨word, spelled⟩ := reserved
    rw [spelled] at split
    exact ⟨_, _, _, split, .keyword run.ends⟩
  · exact ⟨_, _, _, split, .identifier start run (not_exists.mp reserved)⟩

/-- The grammar leaves no character without a segment. -/
theorem exists_fits (first : Char) (rest : List Char) :
    ∃ segment later, segment.text ++ later = first :: rest ∧ Segment.Fits segment later := by
  have ofLexeme : (∃ kind text later, text ++ later = first :: rest ∧ Lexeme kind text later) →
      ∃ segment later, segment.text ++ later = first :: rest ∧ Segment.Fits segment later :=
    fun ⟨kind, text, later, split, lexeme⟩ => ⟨.lexeme kind text, later, split, .lexeme lexeme⟩
  by_cases white : isBlank first
  · exact ⟨.blank first, rest, rfl, .blank white⟩
  by_cases comment : first = '#'
  · subst comment
    have split : ('#' :: rest.takeWhile (· ≠ '\n')) ++ rest.dropWhile (· ≠ '\n') = '#' :: rest :=
      congrArg ('#' :: ·) List.takeWhile_append_dropWhile
    exact ⟨.comment _, _, split, .comment (Run.takeWhile_dropWhile _ rest)⟩
  apply ofLexeme
  by_cases sign : ∃ kind : Kind, kind.character? = some first
  · obtain ⟨kind, written⟩ := sign
    exact ⟨kind, [first], rest, rfl, .sign written⟩
  by_cases start : Segment.isWordStart first
  · exact exists_lexeme_of_word rest start
  by_cases digit : first.isDigit
  · exact exists_lexeme_of_digit rest digit
  by_cases fraction : BeginsFraction (first :: rest)
  · exact ⟨_, @exists_lexeme_of_fraction [] _ nofun fraction⟩
  · have noWord : ¬Segment.isWordPart first := by simp [isWordPart_eq, start, digit]
    exact ⟨_, [first], rest, rfl,
      .unknown white comment (not_exists.mp sign) noWord fraction⟩

end Calculator
