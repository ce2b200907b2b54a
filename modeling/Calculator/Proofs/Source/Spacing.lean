import Calculator.Proofs.Source.Layout

/-!
# Spacing tokens anew

A lexeme stays the same lexeme wherever a blank or a comment follows it, or nothing.  So the texts
of the tokens of a source, written with any separators between them, have tokens of the same kinds
and texts.
-/

namespace Calculator

/-- A text that begins with a blank or a comment, if it is not empty. -/
def Separates (text : List Char) : Prop :=
  ∀ character ∈ text.head?, isBlank character ∨ character = '#'

/-- Blanks and comments, each comment with the newline that ends it. -/
inductive Separator : List Char → Prop
  | nil : Separator []
  | blank {character : Char} {later : List Char} (white : isBlank character)
    (separator : Separator later) : Separator (character :: later)
  | comment {body later : List Char} (oneLine : '\n' ∉ body) (separator : Separator later) :
    Separator ('#' :: (body ++ '\n' :: later))

/-- The texts of tokens, each with a text behind it. -/
def spaced (pieces : List (Token × List Char)) : List Char :=
  pieces.flatMap fun (token, separator) => token.text.toList ++ separator

/-- The kinds and the texts of the lexemes of a source. -/
def lexemes (source : List Char) : List (Kind × String) :=
  (Segment.segments source).filterMap Segment.lexeme?

namespace Separates

variable {later : List Char}

theorem nil : Separates [] :=
  nofun

theorem not_isWordPart (separates : Separates later) :
    ∀ character ∈ later.head?, ¬Segment.isWordPart character := by
  intro character next part
  rcases separates character next with white | rfl
  · exact not_isBlank_of_isWordPart part white
  · cases part

theorem not_isDigit (separates : Separates later) :
    ∀ character ∈ later.head?, ¬character.isDigit := by
  intro character next digit
  refine separates.not_isWordPart character next ?_
  rw [isWordPart_eq, digit, Bool.or_true]

theorem beginsFraction_of_append (separates : Separates later) {rest : List Char}
    (begins : BeginsFraction (rest ++ later)) : BeginsFraction rest := by
  obtain ⟨digit, behind, split, isDigit⟩ := begins
  match rest with
  | [] =>
      have next : '.' ∈ later.head? := congrArg List.head? split
      rcases separates '.' next with white | sign
      · cases white
      · cases sign
  | [point] =>
      have next : digit ∈ later.head? := congrArg List.head? (List.cons.inj split).2
      exact absurd isDigit (separates.not_isDigit digit next)
  | point :: first :: rest =>
      obtain ⟨rfl, later_eq⟩ := List.cons.inj split
      obtain ⟨rfl, -⟩ := List.cons.inj later_eq
      exact ⟨first, rest, rfl, isDigit⟩

end Separates

/-- A run goes on as far in a longer text if what is added does not belong to it. -/
theorem Run.append {member : Char → Bool} {text rest later : List Char} (run : Run member text rest)
    (outside : ∀ character ∈ later.head?, ¬member character) : Run member text (rest ++ later) where
  all := run.all
  ends := by
    intro character next
    cases rest with
    | nil => exact outside character next
    | cons => exact run.ends character next

theorem run_ne_newline_iff {text rest : List Char} :
    Run (· ≠ '\n') text rest ↔ '\n' ∉ text ∧ ∀ character ∈ rest.head?, character = '\n' := by
  constructor
  · intro run
    refine ⟨fun newline => ?_, fun character next => ?_⟩
    · simpa using run.all '\n' newline
    · simpa using run.ends character next
  · rintro ⟨oneLine, ends⟩
    refine ⟨fun character member => ?_, fun character next => ?_⟩
    · exact decide_eq_true (ne_of_mem_of_not_mem member oneLine)
    · simpa using ends character next

/-- A lexeme goes no further if a separator is put at the end of the text behind it. -/
theorem Lexeme.append {kind : Kind} {text rest later : List Char} (lexeme : Lexeme kind text rest)
    (separates : Separates later) : Lexeme kind text (rest ++ later) := by
  cases lexeme with
  | @keyword word _ ends =>
      have run : Run Segment.isWordPart [] rest := ⟨nofun, ends⟩
      exact .keyword (run.append separates.not_isWordPart).ends
  | identifier start run free => exact .identifier start (run.append separates.not_isWordPart) free
  | integer run nonempty whole =>
      exact .integer (run.append separates.not_isDigit) nonempty
        fun begins => whole (separates.beginsFraction_of_append begins)
  | float digits run nonempty => exact .float digits (run.append separates.not_isDigit) nonempty
  | sign written => exact .sign written
  | unknown visible noComment noSign noWord noFraction =>
      refine .unknown visible noComment noSign noWord fun begins => noFraction ?_
      rw [← List.cons_append] at begins
      exact separates.beginsFraction_of_append begins

theorem Lexeme.alone {kind : Kind} {text rest : List Char} (lexeme : Lexeme kind text rest) :
    Lexeme kind text [] := by
  cases lexeme with
  | keyword => exact .keyword nofun
  | identifier start run free => exact .identifier start ⟨run.all, nofun⟩ free
  | integer run nonempty => exact .integer ⟨run.all, nofun⟩ nonempty nofun
  | float digits run nonempty => exact .float digits ⟨run.all, nofun⟩ nonempty
  | sign written => exact .sign written
  | unknown visible noComment noSign noWord => exact .unknown visible noComment noSign noWord nofun

theorem lexemes_nil : lexemes [] = [] := by
  rw [lexemes, Segment.segments_nil, List.filterMap_nil]

theorem Segment.Fits.lexemes_eq {segment : Segment} {rest : List Char} (fits : segment.Fits rest) :
    lexemes (segment.text ++ rest) = segment.lexeme?.toList ++ lexemes rest := by
  rw [lexemes, fits.segments_eq, List.filterMap_cons]
  cases segment.lexeme? <;> rfl

theorem Separator.lexemes_eq {separator : List Char} (isSeparator : Separator separator)
    (rest : List Char) : lexemes (separator ++ rest) = lexemes rest := by
  induction isSeparator with
  | nil => rfl
  | @blank character later white _ induction =>
      have fits : (Segment.blank character).Fits (later ++ rest) := .blank white
      exact fits.lexemes_eq.trans induction
  | @comment body later oneLine _ induction =>
      have run : Run (· ≠ '\n') body ('\n' :: (later ++ rest)) :=
        run_ne_newline_iff.mpr ⟨oneLine, fun _ next => (Option.some.inj next).symm⟩
      have fits : (Segment.comment body).Fits ('\n' :: (later ++ rest)) := .comment run
      have newline : (Segment.blank '\n').Fits (later ++ rest) := .blank rfl
      rw [List.cons_append, List.append_assoc, List.cons_append]
      exact fits.lexemes_eq.trans (newline.lexemes_eq.trans induction)

theorem Separator.separates {separator : List Char} (isSeparator : Separator separator)
    (nonempty : separator ≠ []) (rest : List Char) : Separates (separator ++ rest) := by
  intro character next
  cases isSeparator with
  | nil => exact absurd rfl nonempty
  | blank white =>
      obtain rfl := Option.some.inj next
      exact .inl white
  | comment =>
      obtain rfl := Option.some.inj next
      exact .inr rfl

/-- Lexemes with separators between them are the lexemes of the text that they make up. -/
theorem lexemes_spaced {pieces : List (Token × List Char)}
    (solid : ∀ piece ∈ pieces, ∃ rest, Lexeme piece.1.kind piece.1.text.toList rest)
    (separators : ∀ piece ∈ pieces, Separator piece.2)
    (apart : ∀ piece ∈ pieces.dropLast, piece.2 ≠ []) :
    lexemes (spaced pieces) = pieces.map fun piece => piece.1.lexeme := by
  induction pieces with
  | nil => exact lexemes_nil
  | cons piece pieces induction =>
      obtain ⟨rest, lexeme⟩ := solid piece List.mem_cons_self
      have separator := separators piece List.mem_cons_self
      have later := induction (fun other member => solid other (List.mem_cons_of_mem _ member))
        (fun other member => separators other (List.mem_cons_of_mem _ member))
        fun other member => apart other (by cases pieces <;> simp_all)
      have behind : Separates (piece.2 ++ spaced pieces) := by
        by_cases empty : piece.2 = []
        · -- Only the last piece may lack a separator.
          cases pieces with
          | nil => rw [empty]; exact .nil
          | cons => exact absurd empty (apart piece List.mem_cons_self)
        · exact separator.separates empty _
      have fits : (Segment.lexeme piece.1.kind piece.1.text.toList).Fits
          (piece.2 ++ spaced pieces) := .lexeme (lexeme.alone.append behind)
      rw [spaced, List.flatMap_cons, List.append_assoc]
      refine fits.lexemes_eq.trans ?_
      rw [separator.lexemes_eq, later, Segment.lexeme?, String.ofList_toList]
      rfl

theorem map_lexeme_tokenize (source : String) :
    (tokenize source).map Token.lexeme =
      lexemes source.toList ++ [(.special .endOfInput, Kind.name (.special .endOfInput))] := by
  rw [tokenize, List.map_append, tokens, Token.map_lexeme_place]
  rfl

/-- The tokens of a source are found again between separators. -/
theorem map_lexeme_tokenize_spaced {source : String} {first : List Char}
    {pieces : List (Token × List Char)} (tokens_eq : pieces.map Prod.fst = tokens source)
    (leading : Separator first) (separators : ∀ piece ∈ pieces, Separator piece.2)
    (apart : ∀ piece ∈ pieces.dropLast, piece.2 ≠ []) :
    (tokenize (String.ofList (first ++ spaced pieces))).map Token.lexeme =
      (tokenize source).map Token.lexeme := by
  have solid : ∀ piece ∈ pieces, ∃ rest, Lexeme piece.1.kind piece.1.text.toList rest := by
    intro piece member
    refine (cutting_segments source.toList).exists_lexeme .start piece.1 ?_
    have listed : piece.1 ∈ tokens source := tokens_eq ▸ List.mem_map_of_mem member
    exact listed
  have original : lexemes source.toList = pieces.map fun piece => piece.1.lexeme := by
    rw [lexemes, ← Token.map_lexeme_place .start, ← tokens, ← tokens_eq, List.map_map]
    rfl
  rw [map_lexeme_tokenize, map_lexeme_tokenize, String.toList_ofList, leading.lexemes_eq,
    lexemes_spaced solid separators apart, original]

theorem exists_spaced_eq_intercalate (tokens : List Token) :
    ∃ pieces : List (Token × List Char), pieces.map Prod.fst = tokens ∧
      spaced pieces = [' '].intercalate (tokens.map fun token => token.text.toList) ∧
      (∀ piece ∈ pieces, Separator piece.2) ∧ ∀ piece ∈ pieces.dropLast, piece.2 ≠ [] := by
  induction tokens with
  | nil => exact ⟨[], rfl, rfl, nofun, nofun⟩
  | cons token tokens induction =>
      cases tokens with
      | nil =>
          refine ⟨[(token, [])], rfl, by simp [spaced], ?_, nofun⟩
          exact List.forall_mem_singleton.mpr .nil
      | cons next tokens =>
          obtain ⟨pieces, tokens_eq, texts, separators, apart⟩ := induction
          have space : Separator [' '] := .blank rfl .nil
          refine ⟨(token, [' ']) :: pieces, congrArg (token :: ·) tokens_eq, ?_,
            List.forall_mem_cons.mpr ⟨space, separators⟩, ?_⟩
          · rw [spaced, List.flatMap_cons, ← spaced, texts]
            simp
          · cases pieces with
            | nil => cases tokens_eq
            | cons => exact List.forall_mem_cons.mpr ⟨nofun, apart⟩

/-- Whatever separators are put before, between and behind the texts of the tokens of a source, as
long as there is one between any two of them, the kinds and the texts of the tokens stay the same;
in particular if single spaces are put between them. -/
theorem tokenize_lexemes_of_spaced (source : String) :
    (∀ (first : List Char) (pieces : List (Token × List Char)) (marker : Token),
      tokenize source = pieces.map Prod.fst ++ [marker] → Separator first →
      (∀ piece ∈ pieces, Separator piece.2) → (∀ piece ∈ pieces.dropLast, piece.2 ≠ []) →
        (tokenize (String.ofList (first ++ spaced pieces))).map Token.lexeme =
          (tokenize source).map Token.lexeme) ∧
    (tokenize (" ".intercalate ((tokens source).map Token.text))).map Token.lexeme =
      (tokenize source).map Token.lexeme := by
  constructor
  · intro first pieces marker split leading separators apart
    have tokens_eq : pieces.map Prod.fst = tokens source := (List.append_inj_left' split rfl).symm
    exact map_lexeme_tokenize_spaced tokens_eq leading separators apart
  · obtain ⟨pieces, tokens_eq, texts, separators, apart⟩ :=
      exists_spaced_eq_intercalate (tokens source)
    have joined : " ".intercalate ((tokens source).map Token.text) =
        String.ofList ([] ++ spaced pieces) := by
      rw [← String.toList_inj, List.nil_append, texts]
      simp [Function.comp_def]
    rw [joined]
    exact map_lexeme_tokenize_spaced tokens_eq .nil separators apart

/-- The fraction and the name in `.5x` are found again behind a comment and with a space between
them. -/
theorem tokenize_spaced_fraction_and_name :
    tokenize ".5x" = [(⟨.literal .float, ".5", ⟨1, 1⟩⟩, [' ']),
      (⟨.literal .identifier, "x", ⟨1, 3⟩⟩, ([] : List Char))].map Prod.fst ++
        [Token.endMarker ⟨1, 4⟩] ∧
    Separator ['#', 'c', '\n'] ∧ Separator [' '] ∧ Separator [] ∧
    (tokenize "#c\n.5 x").map Token.lexeme = [(.literal .float, ".5"),
      (.literal .identifier, "x"), (.special .endOfInput, "END_OF_INPUT")] := by
  have found : tokenize ".5x" = [(⟨.literal .float, ".5", ⟨1, 1⟩⟩, [' ']),
      (⟨.literal .identifier, "x", ⟨1, 3⟩⟩, ([] : List Char))].map Prod.fst ++
        [Token.endMarker ⟨1, 4⟩] := by
    decide +kernel
  have comment : Separator ['#', 'c', '\n'] := @Separator.comment ['c'] [] (by decide) .nil
  have space : Separator [' '] := .blank rfl .nil
  have separators : ∀ piece ∈ [((⟨.literal .float, ".5", ⟨1, 1⟩⟩ : Token), [' ']),
      (⟨.literal .identifier, "x", ⟨1, 3⟩⟩, [])], Separator piece.2 :=
    List.forall_mem_cons.mpr ⟨space, List.forall_mem_singleton.mpr .nil⟩
  have same := (tokenize_lexemes_of_spaced ".5x").1 _ _ _ found comment separators (by decide)
  exact ⟨found, comment, space, .nil, same.trans (by rw [found]; rfl)⟩

end Calculator
