import Calculator.Proofs.Source.Layout

/-!
# Where tokens stand

A position that is moved along a text, one character at a time, counts the newlines of the text and
the characters behind the last of them.  So the position of a token is that of its first character,
and since no token has a newline in it, that position can be recovered behind the token.
-/

namespace Calculator

namespace Position

/-- The line and the column just behind a text, by counting. -/
def behind (text : List Char) : Position :=
  ⟨1 + text.count '\n', 1 + (lastLine text).length⟩

/-- Moving along a text is counting in it. -/
theorem advance_start (text : List Char) : start.advance text = behind text := by
  induction text using List.reverseRecOn with
  | nil => rfl
  | append_singleton text character induction =>
      rw [advance_append, induction, advance_cons, advance_nil]
      by_cases newline : character = '\n'
      · rw [newline, step_newline]
        simp [behind, Nat.add_assoc]
      · rw [step_of_ne_newline _ newline]
        simp [behind, lastLine_of_ne_newline _ newline, newline, Nat.add_assoc]

theorem behind_append (front : List Char) {text : List Char} (oneLine : '\n' ∉ text) :
    behind (front ++ text) = ⟨(behind front).line, (behind front).column + text.length⟩ := by
  simp [behind, lastLine_append front oneLine, List.count_eq_zero_of_not_mem oneLine, Nat.add_assoc]

end Position

theorem length_splitOn_newline (text : List Char) :
    (text.splitOn '\n').length = text.count '\n' + 1 := by
  induction text with
  | nil => rfl
  | cons character text induction =>
      rw [List.splitOn_cons_eq_if_modifyHead, List.count_cons, beq_eq_decide]
      by_cases newline : character = '\n'
      · simp [newline, induction]
      · simp [newline, induction]

theorem head?_splitOn_newline (text : List Char) :
    (text.splitOn '\n').head? = some (text.takeWhile (· ≠ '\n')) := by
  induction text with
  | nil => rfl
  | cons character text induction =>
      rw [List.splitOn_cons_eq_if_modifyHead, beq_eq_decide]
      by_cases newline : character = '\n'
      · simp [newline]
      · simp [newline, List.head?_modifyHead, induction]

/-- The line on which a place of a text lies is what stands on it before the place and behind it. -/
theorem getElem?_splitOn_newline (front rest : List Char) :
    ((front ++ rest).splitOn '\n')[front.count '\n']? =
      some (lastLine front ++ rest.takeWhile (· ≠ '\n')) := by
  induction front using List.reverseRecOn generalizing rest with
  | nil => simpa [List.head?_eq_getElem?] using head?_splitOn_newline rest
  | append_singleton front character induction =>
      rw [List.append_assoc, List.singleton_append]
      by_cases newline : character = '\n'
      · -- The lines in front of the newline are complete, and the place is on the next one.
        have length : (front.splitOn '\n').length ≤ (front ++ ['\n']).count '\n' := by
          simp [length_splitOn_newline]
        have next : (front ++ ['\n']).count '\n' - (front.splitOn '\n').length = 0 := by
          simp [length_splitOn_newline]
        rw [newline, List.splitOn_append_cons_self, List.getElem?_append_right length, next,
          ← List.head?_eq_getElem?, head?_splitOn_newline, lastLine_newline, List.nil_append]
      · have same : (front ++ [character]).count '\n' = front.count '\n' := by
          simp [newline]
        rw [same, induction, lastLine_of_ne_newline _ newline]
        simp [newline]

/-- In a source, the position of a token is that of the place behind the text in front of it. -/
structure Token.StandsBehind (token : Token) (source front : List Char) : Prop where
  /-- Line and column count newlines, and characters behind the last of them. -/
  counted : token.position = ⟨1 + front.count '\n', 1 + (lastLine front).length⟩
  /-- The line of that number goes on with the token at that column. -/
  found : ∃ line, (source.splitOn '\n')[token.position.line - 1]? = some line ∧
    token.text.toList <+: line.drop (token.position.column - 1)
  /-- Behind the token its width can be taken from the column, and one at least is left. -/
  recovered : token.text.toList.length + 1 ≤
      (Position.start.advance (front ++ token.text.toList)).column ∧
    token.position = ⟨(Position.start.advance (front ++ token.text.toList)).line,
      (Position.start.advance (front ++ token.text.toList)).column - token.text.toList.length⟩

theorem Token.standsBehind {token : Token} {front : List Char} (rest : List Char)
    (solid : Solid token.text.toList) (counted : token.position = Position.behind front) :
    token.StandsBehind (front ++ token.text.toList ++ rest) front where
  counted := counted
  found := by
    have line : ((front ++ token.text.toList ++ rest).splitOn '\n')[token.position.line - 1]? =
        some (lastLine front ++ (token.text.toList ++ rest).takeWhile (· ≠ '\n')) := by
      rw [counted, List.append_assoc, ← getElem?_splitOn_newline]
      simp [Position.behind]
    refine ⟨_, line, ?_⟩
    have oneLine : ∀ character ∈ token.text.toList, decide (character ≠ '\n') := by
      intro character member
      refine decide_eq_true fun newline => solid.newline_not_mem ?_
      rwa [newline] at member
    rw [counted, List.takeWhile_append_of_pos oneLine]
    simp [Position.behind]
  recovered := by
    rw [Position.advance_start, Position.behind_append front solid.newline_not_mem, counted]
    constructor
    · simp only [Position.behind]
      omega
    · simp only [Position.behind, Nat.add_sub_cancel]

/-- Places are laid out from a position on, so each token stands where the text before it leads. -/
theorem Placed.position_eq {position : Position} {places : List Place}
    (placed : Placed position places) {earlier later : List Place} {place : Place}
    (split : places = earlier ++ place :: later) :
    place.token.position = position.advance (earlier.flatMap Place.text ++ place.gap) := by
  induction earlier generalizing position places with
  | nil =>
      subst split
      exact placed.1
  | cons first earlier induction =>
      subst split
      rw [List.flatMap_cons, List.append_assoc, Position.advance_append]
      exact induction placed.2 rfl

/-- Every token of a source, at its place among tokens and gaps, has the position of its first
character, and the end marker that of the place behind the last one. -/
theorem tokenize_positions_counted (source : String) :
    ∃ (places : List Place) (last : List Char) (marker : Token),
      tokenize source = places.map Place.token ++ [marker] ∧ marker.kind = .special .endOfInput ∧
      (∀ place ∈ places, place.token.kind ≠ .special .endOfInput) ∧
      source.toList = places.flatMap Place.text ++ last ∧ Layout places last source.toList ∧
      (∀ earlier place later, places = earlier ++ place :: later →
        place.token.StandsBehind source.toList (earlier.flatMap Place.text ++ place.gap)) ∧
      marker.position =
        ⟨1 + source.toList.count '\n', 1 + (lastLine source.toList).length⟩ := by
  obtain ⟨places, last, tokens_eq, layout, placed, lexemes⟩ := exists_layout_tokens source
  refine ⟨places, last, .endMarker (endPosition source), by rw [tokenize, tokens_eq], rfl,
    fun place member => (lexemes place member).choose_spec.kind_ne.2, layout.eq_flatMap_text,
    layout, ?_, Position.advance_start _⟩
  intro earlier place later split
  have member : place ∈ places := split ▸ List.mem_append_right earlier List.mem_cons_self
  have solid : Solid place.token.text.toList := (lexemes place member).choose_spec.solid
  have counted := (placed.position_eq split).trans (Position.advance_start _)
  have stands := Token.standsBehind (later.flatMap Place.text ++ last) solid counted
  rw [layout.eq_flatMap_text, split]
  simpa [Place.text, List.append_assoc] using stands

end Calculator
