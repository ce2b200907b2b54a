import Calculator.Proofs.Source.Lexeme
import Calculator.Token.Tokenize

/-!
# The lexical grammar fixes the tokens

Every text that is not empty begins with a segment that fits there, and the segment that the cut
takes is any such one.  So a source has exactly one cutting, and its lexemes are the tokens.
-/

namespace Calculator

theorem isWordStart_iff_toNat {character : Char} :
    Segment.isWordStart character ↔
      65 ≤ character.toNat ∧ character.toNat ≤ 90 ∨ character.toNat = 95 ∨
        97 ≤ character.toNat ∧ character.toNat ≤ 122 := by
  rw [show 95 = '_'.toNat from rfl, Char.toNat_inj]
  delta Segment.isWordStart Char.isAlpha Char.isUpper Char.isLower
  simp only [Bool.or_eq_true, Bool.and_eq_true, decide_eq_true_eq, ge_iff_le,
    UInt32.le_iff_toNat_le]
  constructor
  · rintro ((upper | lower) | underscore)
    · exact .inl upper
    · exact .inr (.inr lower)
    · exact .inr (.inl underscore)
  · rintro (upper | underscore | lower)
    · exact .inl (.inl upper)
    · exact .inr underscore
    · exact .inl (.inr lower)

theorem not_isDigit_of_isWordStart {character : Char} (start : Segment.isWordStart character) :
    ¬character.isDigit := by
  intro digit
  have letters := isWordStart_iff_toNat.mp start
  have digits : 48 ≤ character.toNat ∧ character.toNat ≤ 57 :=
    Char.isDigit_iff_toNat.mp digit
  omega

theorem not_isBlank_of_isWordPart {character : Char} (part : Segment.isWordPart character) :
    ¬isBlank character := by
  have range : 48 ≤ character.toNat ∧ character.toNat ≤ 122 := by
    rw [isWordPart_eq, Bool.or_eq_true] at part
    rcases part with start | digit
    · have letters := isWordStart_iff_toNat.mp start
      omega
    · have digits : 48 ≤ character.toNat ∧ character.toNat ≤ 57 :=
        Char.isDigit_iff_toNat.mp digit
      omega
  simp only [isBlank, blankRanges, List.any_cons, List.any_nil, Bool.or_false, Bool.or_eq_true,
    Bool.and_eq_true, decide_eq_true_eq]
  omega

theorem Kind.class_of_character? {kind : Kind} {character : Char}
    (written : kind.character? = some character) :
    ¬isBlank character ∧ character ≠ '#' ∧ ¬Segment.isWordPart character := by
  unfold character? at written
  split at written <;> cases written <;> decide

theorem Kind.ofChar?_eq_none_iff {character : Char} :
    ofChar? character = none ↔ ∀ kind : Kind, kind.character? ≠ some character := by
  rw [Option.eq_none_iff_forall_ne_some]
  exact forall_congr' fun kind => not_congr ofChar?_eq_some_iff

namespace Segment

theorem cut_sign {kind : Kind} {character : Char} (rest : List Char)
    (written : kind.character? = some character) :
    cut character rest = (lexeme kind [character], rest) := by
  obtain ⟨visible, noComment, -⟩ := Kind.class_of_character? written
  have sign := Kind.ofChar?_eq_some_iff.mpr written
  simp [cut, visible, noComment, sign]

/-- What is neither blank nor a number sign nor a sign begins a word or a numeral, or is unknown. -/
theorem cut_of_noSign {first : Char} (rest : List Char) (visible : ¬isBlank first)
    (noComment : first ≠ '#') (noSign : ∀ kind : Kind, kind.character? ≠ some first) :
    cut first rest =
      if isWordStart first then
        (lexeme (wordKind (first :: rest.takeWhile isWordPart))
          (first :: rest.takeWhile isWordPart), rest.dropWhile isWordPart)
      else (splitNumeral? (first :: rest)).getD (lexeme (.special .unknown) [first], rest) := by
  have none := Kind.ofChar?_eq_none_iff.mpr noSign
  simp [cut, visible, noComment, none]

theorem cut_word {first : Char} {parts rest : List Char} (start : isWordStart first)
    (run : Run isWordPart parts rest) :
    cut first (parts ++ rest) = (lexeme (wordKind (first :: parts)) (first :: parts), rest) := by
  have part : isWordPart first := by rw [isWordPart_eq, start, Bool.true_or]
  have noComment : first ≠ '#' := by
    rintro rfl
    cases start
  have noSign (kind : Kind) : kind.character? ≠ some first := fun written =>
    (Kind.class_of_character? written).2.2 part
  rw [cut_of_noSign _ (not_isBlank_of_isWordPart part) noComment noSign, if_pos start,
    run.takeWhile_eq, run.dropWhile_eq]

theorem cut_numeral {first : Char} (rest : List Char) (begins : first.isDigit ∨ first = '.') :
    cut first rest =
      (splitNumeral? (first :: rest)).getD (lexeme (.special .unknown) [first], rest) := by
  rcases begins with digit | rfl
  · have part : isWordPart first := by rw [isWordPart_eq, digit, Bool.or_true]
    have noComment : first ≠ '#' := by
      rintro rfl
      cases digit
    have noSign (kind : Kind) : kind.character? ≠ some first := fun written =>
      (Kind.class_of_character? written).2.2 part
    have noWord : ¬isWordStart first := fun start => not_isDigit_of_isWordStart start digit
    rw [cut_of_noSign _ (not_isBlank_of_isWordPart part) noComment noSign, if_neg noWord]
  · rfl

theorem splitFraction_of_run {fraction rest : List Char} (run : Run Char.isDigit fraction rest)
    (nonempty : fraction ≠ []) :
    splitFraction ('.' :: (fraction ++ rest)) = ('.' :: fraction, rest) := by
  rw [splitFraction, run.takeWhile_eq, run.dropWhile_eq]
  cases fraction with
  | nil => exact absurd rfl nonempty
  | cons => rfl

theorem splitFraction_of_not_begins {source : List Char} (whole : ¬BeginsFraction source) :
    splitFraction source = ([], source) := by
  fun_cases splitFraction source with
  | case1 rest | case3 => rfl
  | case2 rest digit digits someDigits =>
      have split := List.takeWhile_append_dropWhile (p := Char.isDigit) (l := rest)
      have inside := (Run.takeWhile_dropWhile Char.isDigit rest).all digit
      rw [someDigits] at split inside
      have begins : BeginsFraction ('.' :: rest) :=
        ⟨digit, _, congrArg ('.' :: ·) split.symm, inside List.mem_cons_self⟩
      exact absurd begins whole

theorem splitNumeral?_integer {digits rest : List Char} (run : Run Char.isDigit digits rest)
    (nonempty : digits ≠ []) (whole : ¬BeginsFraction rest) :
    splitNumeral? (digits ++ rest) = some (lexeme (.literal .integer) digits, rest) := by
  simp only [splitNumeral?, run.takeWhile_eq, run.dropWhile_eq, splitFraction_of_not_begins whole]
  simp [nonempty]

theorem splitNumeral?_float {whole fraction rest : List Char}
    (digits : ∀ character ∈ whole, character.isDigit) (run : Run Char.isDigit fraction rest)
    (nonempty : fraction ≠ []) :
    splitNumeral? (whole ++ '.' :: (fraction ++ rest)) =
      some (lexeme (.literal .float) (whole ++ '.' :: fraction), rest) := by
  have front : Run Char.isDigit whole ('.' :: (fraction ++ rest)) := by
    refine ⟨digits, fun character next => ?_⟩
    obtain rfl := Option.some.inj next
    exact nofun
  simp only [splitNumeral?, front.takeWhile_eq, front.dropWhile_eq,
    splitFraction_of_run run nonempty]
  simp

theorem splitNumeral?_eq_none {first : Char} {rest : List Char} (noDigit : ¬first.isDigit)
    (noFraction : ¬BeginsFraction (first :: rest)) : splitNumeral? (first :: rest) = none := by
  simp [splitNumeral?, noDigit, splitFraction_of_not_begins noFraction]

end Segment

theorem Keyword.spelling_eq (word : Keyword) :
    ∃ first parts, word.spelling.toList = first :: parts ∧ Segment.isWordStart first ∧
      ∀ character ∈ parts, Segment.isWordPart character := by
  cases word <;> exact ⟨_, _, rfl, rfl, List.all_eq_true.mp rfl⟩

theorem wordKind_spelling (word : Keyword) :
    Segment.wordKind word.spelling.toList = .keyword word := by
  rw [Segment.wordKind, String.ofList_toList, Keyword.ofWord?_eq_some_iff.mpr rfl]

theorem wordKind_of_free {text : List Char}
    (free : ∀ word : Keyword, text ≠ word.spelling.toList) :
    Segment.wordKind text = .literal .identifier := by
  rw [Segment.wordKind]
  cases found : Keyword.ofWord? (String.ofList text) with
  | none => rfl
  | some word =>
      have spelled := congrArg String.toList (Keyword.ofWord?_eq_some_iff.mp found)
      rw [String.toList_ofList] at spelled
      exact absurd spelled (free word)

/-- A lexeme that fits is the one that is cut off. -/
theorem Lexeme.cut_eq {kind : Kind} {text rest : List Char} (lexeme : Lexeme kind text rest) :
    ∃ first more, text = first :: more ∧
      Segment.cut first (more ++ rest) = (.lexeme kind text, rest) := by
  cases lexeme with
  | @keyword word _ ends =>
      obtain ⟨first, parts, spelling, start, all⟩ := word.spelling_eq
      refine ⟨first, parts, spelling, ?_⟩
      rw [Segment.cut_word start ⟨all, ends⟩, ← spelling, wordKind_spelling]
  | @identifier first parts _ start run free =>
      refine ⟨first, parts, rfl, ?_⟩
      rw [Segment.cut_word start run, wordKind_of_free free]
  | integer run nonempty whole =>
      have split := Segment.splitNumeral?_integer run nonempty whole
      cases text with
      | nil => exact absurd rfl nonempty
      | cons first digits =>
          refine ⟨first, digits, rfl, ?_⟩
          rw [Segment.cut_numeral _ (.inl (run.all first List.mem_cons_self)), ← List.cons_append,
            split]
          rfl
  | @float whole fraction _ digits run nonempty =>
      have split := Segment.splitNumeral?_float digits run nonempty
      cases whole with
      | nil =>
          refine ⟨'.', fraction, rfl, ?_⟩
          rw [Segment.cut_numeral _ (.inr rfl), ← List.nil_append ('.' :: (fraction ++ rest)),
            split]
          rfl
      | cons first whole =>
          refine ⟨first, whole ++ '.' :: fraction, rfl, ?_⟩
          rw [List.append_assoc, List.cons_append,
            Segment.cut_numeral _ (.inl (digits first List.mem_cons_self)), ← List.cons_append,
            split]
          rfl
  | sign written => exact ⟨_, [], rfl, Segment.cut_sign _ written⟩
  | @unknown character _ visible noComment noSign noWord noFraction =>
      refine ⟨character, [], rfl, ?_⟩
      rw [isWordPart_eq, Bool.or_eq_true, not_or] at noWord
      rw [List.nil_append, Segment.cut_of_noSign _ visible noComment noSign, if_neg noWord.1,
        Segment.splitNumeral?_eq_none noWord.2 noFraction]
      rfl

theorem Segment.Fits.cut_eq {segment : Segment} {rest : List Char} (fits : segment.Fits rest) :
    ∃ first more, segment.text = first :: more ∧ cut first (more ++ rest) = (segment, rest) := by
  cases fits with
  | @blank character _ white =>
      refine ⟨character, [], rfl, ?_⟩
      rw [List.nil_append, cut, if_pos white]
  | @comment body _ run =>
      refine ⟨'#', body, rfl, ?_⟩
      rw [cut, if_neg (by decide), if_pos rfl, run.takeWhile_eq, run.dropWhile_eq]
  | lexeme lexeme => exact lexeme.cut_eq

theorem Segment.Fits.segments_eq {segment : Segment} {rest : List Char} (fits : segment.Fits rest) :
    segments (segment.text ++ rest) = segment :: segments rest := by
  obtain ⟨first, more, text, cut⟩ := fits.cut_eq
  rw [text, List.cons_append, segments_cons, cut]

theorem cutting_segments (source : List Char) : Cutting source (Segment.segments source) := by
  generalize size : source.length = length
  induction length using Nat.strongRecOn generalizing source with
  | ind length induction =>
      cases source with
      | nil =>
          rw [Segment.segments_nil]
          exact .nil
      | cons first rest =>
          obtain ⟨segment, later, split, fits⟩ := exists_fits first rest
          have shorter : later.length < length := by
            obtain ⟨start, more, text, _⟩ := fits.cut_eq
            rw [← size, ← split, text, List.length_append, List.length_cons]
            omega
          rw [← split, fits.segments_eq]
          exact .cons fits (induction later.length shorter later rfl)

/-- No other segments are a cutting of a source. -/
theorem Cutting.eq_segments {source : List Char} {segments : List Segment}
    (cutting : Cutting source segments) : segments = Segment.segments source := by
  induction cutting with
  | nil => rw [Segment.segments_nil]
  | cons fits _ induction => rw [fits.segments_eq, ← induction]

/-- The kind and the text of a token. -/
def Token.lexeme (token : Token) : Kind × String := (token.kind, token.text)

/-- The kind and the text of a segment that is a lexeme. -/
def Segment.lexeme? : Segment → Option (Kind × String)
  | lexeme kind text => some (kind, String.ofList text)
  | blank _ | comment _ => none

theorem Token.map_lexeme_place (position : Position) (segments : List Segment) :
    (place position segments).map lexeme = segments.filterMap Segment.lexeme? := by
  induction segments generalizing position with
  | nil => rfl
  | cons segment segments induction =>
      rw [place_cons, List.map_append, induction]
      cases segment <;> rfl

/-- Neither comparisons for inequality nor end markers have lexemes. -/
theorem Lexeme.kind_ne {kind : Kind} {text rest : List Char} (lexeme : Lexeme kind text rest) :
    kind ≠ .comparison .notEqual ∧ kind ≠ .special .endOfInput := by
  cases lexeme with
  | sign written => constructor <;> rintro rfl <;> cases written
  | keyword | identifier | integer | float | unknown => exact ⟨nofun, nofun⟩

theorem Cutting.kind_ne {source : List Char} {segments : List Segment}
    (cutting : Cutting source segments) :
    ∀ lexeme ∈ segments.filterMap Segment.lexeme?,
      lexeme.1 ≠ .comparison .notEqual ∧ lexeme.1 ≠ .special .endOfInput := by
  induction cutting with
  | nil => exact nofun
  | cons fits _ induction =>
      cases fits with
      | blank | comment => exact induction
      | lexeme lexeme => exact List.forall_mem_cons.mpr ⟨lexeme.kind_ne, induction⟩

/-- A source has exactly one cutting, and its lexemes are the tokens in front of the only end
marker.  No token is a comparison for inequality. -/
theorem tokenize_eq_lexemes_of_cutting (source : String) :
    ∃ (segments : List Segment) (tokens : List Token) (marker : Token),
      Cutting source.toList segments ∧
      (∀ other, Cutting source.toList other → other = segments) ∧
      tokenize source = tokens ++ [marker] ∧
      tokens.map Token.lexeme = segments.filterMap Segment.lexeme? ∧
      marker.kind = .special .endOfInput ∧
      ∀ token ∈ tokens, token.kind ≠ .comparison .notEqual ∧ token.kind ≠ .special .endOfInput := by
  have cutting := cutting_segments source.toList
  have lexemes := Token.map_lexeme_place .start (Segment.segments source.toList)
  refine ⟨_, _, _, cutting, fun _ other => other.eq_segments, rfl, lexemes, rfl, ?_⟩
  intro token member
  refine cutting.kind_ne token.lexeme ?_
  rw [← lexemes]
  exact List.mem_map_of_mem member

end Calculator
