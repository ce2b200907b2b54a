import Calculator.Proofs.Source.Location
import Calculator.Proofs.Source.Spacing

/-!
# Sources line by line

Nothing that the reader of a source knows survives a newline except the number of the line.  So the
tokens of a source are those of its lines, each read by itself up to its first number sign, and the
tokens of a text below another one are its own tokens, moved down.
-/

namespace Calculator

namespace Position

/-- The position so many lines further down. -/
def below (lines : Nat) (position : Position) : Position :=
  ⟨position.line + lines, position.column⟩

/-- The position in the same column of the line with a given number. -/
def onLine (number : Nat) (position : Position) : Position :=
  ⟨number, position.column⟩

/-- A character leads from a moved position to the moved position behind it. -/
def MovesAlong (move : Position → Position) (character : Char) : Prop :=
  ∀ position, (move position).step character = move (position.step character)

end Position

/-- The same token somewhere else. -/
def Token.move (move : Position → Position) (token : Token) : Token :=
  { token with position := move token.position }

/-- The tokens of a text that is laid out from a position on. -/
def tokensFrom (position : Position) (text : List Char) : List Token :=
  Token.place position (Segment.segments text)

/-- The tokens of a line in front of its first number sign, on the line with a given number. -/
def lineTokens (line : List Char) (number : Nat) : List Token :=
  (tokens (String.ofList (line.takeWhile (· ≠ '#')))).map (Token.move (.onLine number))

namespace Position

variable {move : Position → Position}

theorem movesAlong_below (lines : Nat) (character : Char) : MovesAlong (below lines) character := by
  intro position
  by_cases newline : character = '\n'
  · rw [newline, step_newline, step_newline, below, below, Nat.add_right_comm]
  · rw [step_of_ne_newline _ newline, step_of_ne_newline _ newline]
    rfl

theorem movesAlong_onLine (number : Nat) {character : Char} (ordinary : character ≠ '\n') :
    MovesAlong (onLine number) character := by
  intro position
  rw [step_of_ne_newline _ ordinary, step_of_ne_newline _ ordinary]
  rfl

theorem advance_move {text : List Char} (along : ∀ character ∈ text, MovesAlong move character)
    (position : Position) : (move position).advance text = move (position.advance text) := by
  induction text generalizing position with
  | nil => rfl
  | cons character text induction =>
      obtain ⟨here, later⟩ := List.forall_mem_cons.mp along
      rw [advance_cons, here position, induction later]
      rfl

theorem line_advance (position : Position) (text : List Char) :
    (position.advance text).line = position.line + text.count '\n' := by
  induction text generalizing position with
  | nil => rfl
  | cons character text induction =>
      rw [advance_cons, induction, List.count_cons, beq_eq_decide]
      by_cases newline : character = '\n'
      · simp [newline, Nat.add_right_comm, Nat.add_assoc]
      · simp [newline, step_of_ne_newline _ newline]

theorem step_newline_advance (position : Position) (text : List Char) :
    (position.advance text).step '\n' = ⟨position.line + (text.count '\n' + 1), 1⟩ := by
  rw [step_newline, line_advance, Nat.add_assoc]

end Position

theorem Token.place_move {move : Position → Position} {segments : List Segment}
    (along : ∀ character ∈ segments.flatMap Segment.text, Position.MovesAlong move character)
    (position : Position) :
    place (move position) segments = (place position segments).map (Token.move move) := by
  induction segments generalizing position with
  | nil => rfl
  | cons segment segments induction =>
      rw [List.flatMap_cons, List.forall_mem_append] at along
      rw [place_cons, place_cons, Position.advance_move along.1, induction along.2, List.map_append]
      cases segment <;> rfl

theorem tokensFrom_move {move : Position → Position} {text : List Char}
    (along : ∀ character ∈ text, Position.MovesAlong move character) (position : Position) :
    tokensFrom (move position) text = (tokensFrom position text).map (Token.move move) := by
  refine Token.place_move ?_ position
  rwa [Segment.flatMap_text_segments]

/-- A segment stays the same when a separator is put at the end of a source, unless it is a comment
that goes on with the separator. -/
theorem Segment.Fits.append {segment : Segment} {rest later : List Char} (fits : segment.Fits rest)
    (separates : Separates later) (ends : CommentEnds (segment.text ++ rest) later) :
    segment.Fits (rest ++ later) := by
  cases fits with
  | blank white => exact .blank white
  | lexeme lexeme => exact .lexeme (lexeme.append separates)
  | @comment body _ run =>
      obtain ⟨oneLine, newline⟩ := run_ne_newline_iff.mp run
      refine .comment (run_ne_newline_iff.mpr ⟨oneLine, ?_⟩)
      cases rest with
      | cons => exact newline
      | nil =>
          -- The comment stands on the last line of the source.
          have inLine : '\n' ∉ '#' :: body := List.not_mem_cons_of_ne_of_not_mem (by decide) oneLine
          refine ends ?_
          rw [Segment.text, List.append_nil, ← List.nil_append ('#' :: body),
            lastLine_append [] inLine]
          exact List.mem_cons_self

theorem Cutting.append {source later : List Char} {segments others : List Segment}
    (cutting : Cutting source segments) (behind : Cutting later others)
    (separates : Separates later) (ends : CommentEnds source later) :
    Cutting (source ++ later) (segments ++ others) := by
  induction cutting with
  | nil => exact behind
  | @cons segment rest segments fits _ induction =>
      rw [List.append_assoc]
      refine .cons (fits.append separates ends) (induction fun sign => ?_)
      exact ends ((lastLine_suffix segment.text rest).subset sign)

/-- A text that begins with a separator is read by itself behind a source, unless it goes on with a
comment. -/
theorem tokensFrom_append {source later : List Char} (position : Position)
    (separates : Separates later) (ends : CommentEnds source later) :
    tokensFrom position (source ++ later) =
      tokensFrom position source ++ tokensFrom (position.advance source) later := by
  have joined := (cutting_segments source).append (cutting_segments later) separates ends
  rw [tokensFrom, ← joined.eq_segments, Token.place_append, Segment.flatMap_text_segments]
  rfl

theorem tokensFrom_newline (position : Position) (upper lower : List Char) :
    tokensFrom position (upper ++ '\n' :: lower) = tokensFrom position upper ++
      tokensFrom ⟨position.line + (upper.count '\n' + 1), 1⟩ lower := by
  have separates : Separates ('\n' :: lower) := by
    rintro _ ⟨⟩
    exact .inl rfl
  have ends : CommentEnds upper ('\n' :: lower) := by
    rintro - _ ⟨⟩
    rfl
  have newline : (Segment.blank '\n').Fits lower := .blank rfl
  have segments_eq : Segment.segments ('\n' :: lower) = .blank '\n' :: Segment.segments lower :=
    newline.segments_eq
  rw [tokensFrom_append position separates ends, ← position.step_newline_advance upper]
  congr 1
  rw [tokensFrom, segments_eq, Token.place_cons]
  rfl

theorem tokensFrom_comment (position : Position) {body : List Char} (oneLine : '\n' ∉ body) :
    tokensFrom position ('#' :: body) = [] := by
  have fits : (Segment.comment body).Fits [] :=
    .comment (run_ne_newline_iff.mpr ⟨oneLine, nofun⟩)
  have segments_eq : Segment.segments (('#' :: body) ++ []) = .comment body :: [] :=
    fits.segments_eq.trans (congrArg _ Segment.segments_nil)
  rw [List.append_nil] at segments_eq
  rw [tokensFrom, segments_eq]
  rfl

/-- A line is read like the part of it in front of its first number sign. -/
theorem tokensFrom_line (position : Position) {line : List Char} (oneLine : '\n' ∉ line) :
    tokensFrom position line = tokensFrom position (line.takeWhile (· ≠ '#')) := by
  by_cases sign : '#' ∈ line
  · obtain ⟨front, body, rfl, noSign⟩ := List.eq_append_cons_of_mem sign
    have all : ∀ character ∈ front, decide (character ≠ '#') := fun character member =>
      decide_eq_true (ne_of_mem_of_not_mem member noSign)
    have front_eq : (front ++ '#' :: body).takeWhile (· ≠ '#') = front := by
      rw [List.takeWhile_append_of_pos all]
      simp
    have separates : Separates ('#' :: body) := by
      rintro _ ⟨⟩
      exact .inr rfl
    have ends : CommentEnds front ('#' :: body) := fun inLastLine =>
      absurd ((List.rtakeWhile_suffix _ front).subset inLastLine) noSign
    have bodyOneLine : '\n' ∉ body := fun newline =>
      oneLine (List.mem_append_right front (List.mem_cons_of_mem '#' newline))
    rw [front_eq, tokensFrom_append position separates ends, tokensFrom_comment _ bodyOneLine,
      List.append_nil]
  · rw [List.takeWhile_eq_self_iff.mpr]
    exact fun character member => decide_eq_true (ne_of_mem_of_not_mem member sign)

theorem tokensFrom_eq_lineTokens (number : Nat) {line : List Char} (oneLine : '\n' ∉ line) :
    tokensFrom ⟨number, 1⟩ line = lineTokens line number := by
  have along : ∀ character ∈ line.takeWhile (· ≠ '#'),
      Position.MovesAlong (.onLine number) character := by
    intro character member
    refine Position.movesAlong_onLine number (ne_of_mem_of_not_mem ?_ oneLine)
    exact (List.takeWhile_prefix _).subset member
  rw [tokensFrom_line _ oneLine, lineTokens, tokens, String.toList_ofList]
  exact tokensFrom_move along .start

/-- The tokens of a text are those of its lines. -/
theorem tokensFrom_eq_flatMap_lineTokens (text : List Char) (number : Nat) :
    tokensFrom ⟨number, 1⟩ text =
      ((text.splitOn '\n').zipIdx number).flatMap fun (line, number) => lineTokens line number := by
  generalize split : text.splitOn '\n' = lines
  induction lines generalizing text number with
  | nil => exact absurd split (List.splitOn_ne_nil '\n' text)
  | cons line lines induction =>
      rw [List.zipIdx_cons, List.flatMap_cons]
      by_cases newline : '\n' ∈ text
      · obtain ⟨upper, lower, rfl, oneLine⟩ := List.eq_append_cons_of_mem newline
        rw [List.splitOn_append_cons_self_of_not_mem oneLine] at split
        obtain ⟨rfl, below⟩ := List.cons.inj split
        rw [tokensFrom_newline, tokensFrom_eq_lineTokens number oneLine, ← induction lower _ below,
          List.count_eq_zero_of_not_mem oneLine]
      · rw [List.splitOn_eq_singleton newline] at split
        obtain ⟨rfl, rfl⟩ := List.cons.inj split
        rw [tokensFrom_eq_lineTokens number newline]
        simp

/-- The place behind a source lies on its last line, behind all characters of it. -/
theorem exists_endPosition_eq (source : String) :
    ∃ last, (source.toList.splitOn '\n').getLast? = some last ∧
      endPosition source = ⟨(source.toList.splitOn '\n').length, 1 + last.length⟩ := by
  refine ⟨lastLine source.toList, ?_, ?_⟩
  · have found := getElem?_splitOn_newline source.toList []
    rw [List.append_nil, List.takeWhile_nil, List.append_nil] at found
    rw [List.getLast?_eq_getElem?, length_splitOn_newline, Nat.add_sub_cancel, found]
  · rw [endPosition, Position.advance_start, Position.behind, length_splitOn_newline, Nat.add_comm]

theorem toList_append_newline (upper lower : String) :
    (upper ++ "\n" ++ lower).toList = upper.toList ++ '\n' :: lower.toList := by
  simp

theorem tokens_append_newline (upper lower : String) :
    tokens (upper ++ "\n" ++ lower) = tokens upper ++
      (tokens lower).map (Token.move (.below (upper.toList.count '\n' + 1))) := by
  have along : ∀ character ∈ lower.toList, Position.MovesAlong
      (.below (upper.toList.count '\n' + 1)) character :=
    fun character _ => Position.movesAlong_below _ character
  rw [tokens, toList_append_newline, ← tokensFrom, tokensFrom_newline]
  exact congrArg (tokens upper ++ ·) (tokensFrom_move along .start)

theorem endPosition_append_newline (upper lower : String) :
    endPosition (upper ++ "\n" ++ lower) =
      (endPosition lower).below (upper.toList.count '\n' + 1) := by
  rw [endPosition, toList_append_newline, Position.advance_append, Position.advance_cons,
    Position.step_newline_advance]
  exact Position.advance_move (fun character _ => Position.movesAlong_below _ character) .start

/-- The tokens of a source are those of its lines in front of their first number signs, each with
the number of its line, and the end marker stands behind the last line.  If a text is put below
another one, its tokens come behind the tokens of the other one and stand as many lines further down
as that one has. -/
theorem tokenize_line_by_line :
    (∀ source : String, ∃ last, (source.toList.splitOn '\n').getLast? = some last ∧
      tokenize source =
        (((source.toList.splitOn '\n').zipIdx 1).flatMap fun (line, number) =>
          lineTokens line number) ++
        [.endMarker ⟨(source.toList.splitOn '\n').length, 1 + last.length⟩]) ∧
    ∀ upper lower : String, tokenize (upper ++ "\n" ++ lower) =
      tokens upper ++ (tokenize lower).map (Token.move (.below (upper.toList.count '\n' + 1))) := by
  constructor
  · intro source
    obtain ⟨last, found, end_eq⟩ := exists_endPosition_eq source
    refine ⟨last, found, ?_⟩
    rw [tokenize, end_eq, ← tokensFrom_eq_flatMap_lineTokens]
    rfl
  · intro upper lower
    rw [tokenize, tokenize, tokens_append_newline, endPosition_append_newline, List.map_append,
      List.append_assoc]
    rfl

end Calculator
