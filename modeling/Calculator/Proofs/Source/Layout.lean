import Mathlib.Data.List.DropRight
import Calculator.Proofs.Source.Cutting

/-!
# The layout of a source text

The tokens of a source stand in it one behind the other, with gaps of blanks and comments before,
between and behind them.  Whether a character belongs to a gap can be seen without reading tokens:
it is blank, or a number sign stands before it on its line.  Every other character lies in one
token.
-/

namespace Calculator

/-- The part of a text behind its last newline. -/
def lastLine (text : List Char) : List Char :=
  text.rtakeWhile (· ≠ '\n')

/-- Blanks and comments in front of a text.  A comment goes on to the end of its line. -/
inductive Gap : (gap rest : List Char) → Prop
  | nil {rest : List Char} : Gap [] rest
  | blank {character : Char} {gap rest : List Char} (white : isBlank character)
    (later : Gap gap rest) : Gap (character :: gap) rest
  | comment {body gap rest : List Char} (run : Run (· ≠ '\n') body (gap ++ rest))
    (later : Gap gap rest) : Gap ('#' :: (body ++ gap)) rest

/-- A token with the gap in front of it. -/
structure Place where
  /-- Everything between the token and the one before it. -/
  gap : List Char
  /-- The token. -/
  token : Token

/-- The part of a source that belongs to a place. -/
def Place.text (place : Place) : List Char :=
  place.gap ++ place.token.text.toList

/-- A source consists of places, one behind the other, and a gap behind the last of them. -/
inductive Layout : (places : List Place) → (last source : List Char) → Prop
  | last {last : List Char} (gap : Gap last []) : Layout [] last last
  | place {place : Place} {places : List Place} {last rest : List Char}
    (gap : Gap place.gap (place.token.text.toList ++ rest)) (later : Layout places last rest) :
    Layout (place :: places) last (place.text ++ rest)

/-- The character with the given index lies in the token of the place with the given number. -/
def LiesIn (places : List Place) (index number : Nat) : Prop :=
  ∃ place, places[number]? = some place ∧
    ((places.take number).flatMap Place.text ++ place.gap).length ≤ index ∧
    index < ((places.take number).flatMap Place.text ++ place.text).length

/-- Tokens stand where the text from a position on leads to. -/
def Placed : Position → List Place → Prop
  | _, [] => True
  | position, place :: places =>
    place.token.position = position.advance place.gap ∧ Placed (position.advance place.text) places

@[simp]
theorem lastLine_nil : lastLine [] = [] := rfl

@[simp]
theorem lastLine_newline (text : List Char) : lastLine (text ++ ['\n']) = [] :=
  List.rtakeWhile_concat_neg _ _ _ (by decide)

theorem lastLine_of_ne_newline (text : List Char) {character : Char} (ordinary : character ≠ '\n') :
    lastLine (text ++ [character]) = lastLine text ++ [character] :=
  List.rtakeWhile_concat_pos _ _ _ (by simpa using ordinary)

theorem lastLine_append (front : List Char) {text : List Char} (oneLine : '\n' ∉ text) :
    lastLine (front ++ text) = lastLine front ++ text := by
  induction text using List.reverseRecOn with
  | nil => simp
  | append_singleton text character induction =>
      rw [List.mem_append, not_or, List.mem_singleton] at oneLine
      rw [← List.append_assoc, lastLine_of_ne_newline _ (Ne.symm oneLine.2), induction oneLine.1,
        List.append_assoc]

theorem lastLine_suffix (front text : List Char) : lastLine text <:+ lastLine (front ++ text) := by
  induction text using List.reverseRecOn with
  | nil => exact List.nil_suffix
  | append_singleton text character induction =>
      rw [← List.append_assoc]
      by_cases newline : character = '\n'
      · rw [newline, lastLine_newline]
        exact List.nil_suffix
      · obtain ⟨before, same⟩ := induction
        rw [lastLine_of_ne_newline _ newline, lastLine_of_ne_newline _ newline]
        exact ⟨before, by rw [← List.append_assoc, same]⟩

theorem split_append {α : Type} {left right front back : List α} {middle : α}
    (split : left ++ right = front ++ middle :: back) :
    (∃ more, left = front ++ middle :: more) ∨
      ∃ before, front = left ++ before ∧ right = before ++ middle :: back := by
  rcases List.append_eq_append_iff.mp split with
    ⟨before, front_eq, right_eq⟩ | ⟨more, left_eq, back_eq⟩
  · exact .inr ⟨before, front_eq, right_eq⟩
  · cases more with
    | nil => exact .inr ⟨[], by simpa using left_eq.symm, back_eq.symm⟩
    | cons first more =>
        obtain ⟨rfl, -⟩ := List.cons.inj back_eq
        exact .inl ⟨more, left_eq⟩

namespace Gap

theorem append {left right rest : List Char} (first : Gap left (right ++ rest))
    (second : Gap right rest) : Gap (left ++ right) rest := by
  generalize whole : right ++ rest = behind at first
  induction first with
  | nil => exact second
  | blank white _ induction => exact .blank white (induction whole)
  | comment run _ induction =>
      subst whole
      rw [List.cons_append, List.append_assoc]
      rw [← List.append_assoc] at run
      exact .comment run (induction rfl)

/-- A character of a gap is blank or stands behind a number sign on its line. -/
theorem isBlank_or_mem_lastLine {gap rest front back : List Char} {character : Char}
    (isGap : Gap gap rest) (split : gap = front ++ character :: back) :
    isBlank character ∨ '#' ∈ lastLine (front ++ [character]) := by
  induction isGap generalizing front with
  | nil => simp at split
  | @blank first gap _ white _ induction =>
      cases front with
      | nil =>
          obtain ⟨rfl, -⟩ := List.cons.inj split
          exact .inl white
      | cons other front =>
          have later := induction (List.cons.inj split).2
          exact later.imp_right fun sign => (lastLine_suffix [other] _).subset sign
  | @comment body gap rest run _ induction =>
      have parts : ('#' :: body) ++ gap = front ++ character :: back := split
      rcases split_append parts with ⟨more, comment⟩ | ⟨before, rfl, later⟩
      · -- The character belongs to the comment, which has no newline in it.
        have oneLine : '\n' ∉ front ++ [character] := by
          intro newline
          have inside : '\n' ∈ '#' :: body := by
            rw [comment, ← List.singleton_append, ← List.append_assoc]
            exact List.mem_append_left more newline
          rcases List.mem_cons.mp inside with sign | inBody
          · cases sign
          · simpa using run.all _ inBody
        have line := lastLine_append [] oneLine
        rw [List.nil_append, lastLine_nil, List.nil_append] at line
        rw [line]
        cases front with
        | nil =>
            obtain ⟨rfl, -⟩ := List.cons.inj comment
            exact .inr List.mem_cons_self
        | cons other front =>
            obtain ⟨rfl, -⟩ := List.cons.inj comment
            exact .inr List.mem_cons_self
      · rw [List.append_assoc]
        exact (induction later).imp_right fun sign => (lastLine_suffix _ _).subset sign

end Gap

section Places

variable {place : Place} {places : List Place} {index number other : Nat}

theorem liesIn_zero_iff :
    LiesIn (place :: places) index 0 ↔ place.gap.length ≤ index ∧ index < place.text.length := by
  simp [LiesIn]

theorem liesIn_succ_iff :
    LiesIn (place :: places) index (number + 1) ↔
      place.text.length ≤ index ∧ LiesIn places (index - place.text.length) number := by
  constructor
  · rintro ⟨found, at_number, from_start, before_end⟩
    simp only [List.take_succ_cons, List.flatMap_cons, List.append_assoc, List.length_append]
      at from_start before_end
    refine ⟨by omega, found, at_number, ?_, ?_⟩
    · rw [List.length_append]
      omega
    · rw [List.length_append]
      omega
  · rintro ⟨behind, found, at_number, from_start, before_end⟩
    rw [List.length_append] at from_start before_end
    refine ⟨found, at_number, ?_, ?_⟩
    · simp only [List.take_succ_cons, List.flatMap_cons, List.append_assoc, List.length_append]
      omega
    · simp only [List.take_succ_cons, List.flatMap_cons, List.append_assoc, List.length_append]
      omega

theorem LiesIn.unique (lies : LiesIn places index number) (liesOther : LiesIn places index other) :
    number = other := by
  induction places generalizing index number other with
  | nil =>
      obtain ⟨_, found, _⟩ := lies
      cases found
  | cons place places induction =>
      cases number with
      | zero =>
          cases other with
          | zero => rfl
          | succ other =>
              rw [liesIn_zero_iff] at lies
              rw [liesIn_succ_iff] at liesOther
              omega
      | succ number =>
          rw [liesIn_succ_iff] at lies
          cases other with
          | zero =>
              rw [liesIn_zero_iff] at liesOther
              omega
          | succ other =>
              rw [liesIn_succ_iff] at liesOther
              rw [induction lies.2 liesOther.2]

end Places

namespace Layout

variable {places : List Place} {last source : List Char}

theorem eq_flatMap_text (layout : Layout places last source) :
    source = places.flatMap Place.text ++ last := by
  induction layout with
  | last => rfl
  | place _ _ induction => rw [List.flatMap_cons, List.append_assoc, ← induction]

theorem exists_liesIn (layout : Layout places last source) {front back : List Char}
    {character : Char} (split : source = front ++ character :: back) (visible : ¬isBlank character)
    (noComment : '#' ∉ lastLine (front ++ [character])) :
    ∃ number, LiesIn places front.length number := by
  induction layout generalizing front with
  | last gap => exact absurd (gap.isBlank_or_mem_lastLine split) (by simp [visible, noComment])
  | @place place places last rest gap _ induction =>
      rcases split_append split with ⟨more, here⟩ | ⟨before, rfl, later⟩
      · rcases split_append here with ⟨more, inGap⟩ | ⟨before, rfl, inToken⟩
        · exact absurd (gap.isBlank_or_mem_lastLine inGap) (by simp [visible, noComment])
        · refine ⟨0, liesIn_zero_iff.mpr ?_⟩
          simp [Place.text, inToken]
      · have laterNoComment : '#' ∉ lastLine (before ++ [character]) := fun sign => by
          rw [List.append_assoc] at noComment
          exact noComment ((lastLine_suffix _ _).subset sign)
        obtain ⟨number, lies⟩ := induction later laterNoComment
        refine ⟨number + 1, liesIn_succ_iff.mpr ?_⟩
        simpa using lies

end Layout

/-- No comment goes on with a text: a number sign on the line in front of it ends there. -/
def CommentEnds (front rest : List Char) : Prop :=
  '#' ∈ lastLine front → ∀ character ∈ rest.head?, character = '\n'

/-- A text without blanks and comments. -/
def Solid (text : List Char) : Prop :=
  ∀ character ∈ text, ¬isBlank character ∧ character ≠ '#'

theorem Solid.newline_not_mem {text : List Char} (solid : Solid text) : '\n' ∉ text :=
  fun newline => (solid _ newline).1 rfl

theorem Gap.commentEnds {gap rest front : List Char} (isGap : Gap gap rest)
    (ends : CommentEnds front (gap ++ rest)) : CommentEnds (front ++ gap) rest := by
  induction isGap generalizing front with
  | nil => rwa [List.append_nil]
  | @blank character gap rest white _ induction =>
      rw [← List.singleton_append, ← List.append_assoc]
      refine induction fun sign => ?_
      by_cases newline : character = '\n'
      · rw [newline, lastLine_newline] at sign
        cases sign
      · rw [lastLine_of_ne_newline _ newline, List.mem_append, List.mem_singleton] at sign
        rcases sign with earlier | rfl
        · exact absurd (ends earlier character rfl) newline
        · cases white
  | @comment body gap rest run _ induction =>
      rw [← List.cons_append, ← List.append_assoc]
      refine induction fun _ character next => ?_
      simpa using run.ends character next

/-- In a solid text no comment begins, and none goes on with it. -/
theorem CommentEnds.sign_not_mem {front text rest : List Char}
    (ends : CommentEnds front (text ++ rest)) (solid : Solid text) {part more : List Char}
    (split : text = part ++ more) (nonempty : part ≠ []) : '#' ∉ lastLine (front ++ part) := by
  have partSolid : Solid part := fun character member =>
    solid character (split ▸ List.mem_append_left more member)
  rw [lastLine_append front partSolid.newline_not_mem, List.mem_append, not_or]
  refine ⟨fun sign => ?_, fun sign => (partSolid _ sign).2 rfl⟩
  obtain ⟨first, part, rfl⟩ := List.exists_cons_of_ne_nil nonempty
  obtain rfl := ends sign first (by rw [split]; rfl)
  exact partSolid.newline_not_mem List.mem_cons_self

theorem CommentEnds.behind {front text rest : List Char}
    (ends : CommentEnds front (text ++ rest)) (solid : Solid text) :
    CommentEnds (front ++ text) rest := by
  by_cases empty : text = []
  · subst empty
    rwa [List.append_nil]
  · intro sign
    exact absurd sign (ends.sign_not_mem solid (List.append_nil text).symm empty)

/-- A character in a solid token belongs to no gap. -/
theorem Layout.not_isBlank_of_liesIn {places : List Place} {last source : List Char}
    (layout : Layout places last source)
    (solid : ∀ place ∈ places, Solid place.token.text.toList) {base front back : List Char}
    {character : Char} {number : Nat} (ends : CommentEnds base source)
    (split : source = front ++ character :: back) (lies : LiesIn places front.length number) :
    ¬isBlank character ∧ '#' ∉ lastLine (base ++ (front ++ [character])) := by
  induction layout generalizing base front number with
  | last =>
      obtain ⟨_, found, _⟩ := lies
      cases found
  | @place place places last rest gap _ induction =>
      have tokenSolid := solid place List.mem_cons_self
      have tokenEnds : CommentEnds (base ++ place.gap) (place.token.text.toList ++ rest) := by
        rw [Place.text, List.append_assoc] at ends
        exact gap.commentEnds ends
      cases number with
      | zero =>
          obtain ⟨from_gap, before_end⟩ := liesIn_zero_iff.mp lies
          rcases split_append split with ⟨more, here⟩ | ⟨before, rfl, -⟩
          · rcases split_append here with ⟨more, inGap⟩ | ⟨before, rfl, inToken⟩
            · rw [inGap, List.length_append, List.length_cons] at from_gap
              omega
            · have part : place.token.text.toList = (before ++ [character]) ++ more := by
                rw [inToken, List.append_assoc, List.singleton_append]
              have noComment := tokenEnds.sign_not_mem tokenSolid part (by simp)
              refine ⟨(tokenSolid character (by simp [inToken])).1, ?_⟩
              simpa [List.append_assoc] using noComment
          · rw [List.length_append] at before_end
            omega
      | succ number =>
          obtain ⟨behind, later⟩ := liesIn_succ_iff.mp lies
          rcases split_append split with ⟨more, here⟩ | ⟨before, rfl, inRest⟩
          · rw [here, List.length_append, List.length_cons] at behind
            omega
          · have laterEnds : CommentEnds (base ++ place.text) rest := by
              rw [Place.text, ← List.append_assoc]
              exact tokenEnds.behind tokenSolid
            have laterSolid : ∀ place ∈ places, Solid place.token.text.toList := fun other member =>
              solid other (List.mem_cons_of_mem place member)
            have laterLies : LiesIn places before.length number := by simpa using later
            have found := induction laterSolid laterEnds inRest laterLies
            simpa [List.append_assoc] using found

/-! ## The layout of the tokens -/

theorem Lexeme.solid {kind : Kind} {text rest : List Char} (lexeme : Lexeme kind text rest) :
    Solid text := by
  have part {character : Char} (inside : Segment.isWordPart character) :
      ¬isBlank character ∧ character ≠ '#' :=
    ⟨not_isBlank_of_isWordPart inside, fun sign => by rw [sign] at inside; cases inside⟩
  have start {character : Char} (inside : Segment.isWordStart character) :
      ¬isBlank character ∧ character ≠ '#' :=
    part (by rw [isWordPart_eq, inside, Bool.true_or])
  have digit {character : Char} (inside : character.isDigit) :
      ¬isBlank character ∧ character ≠ '#' :=
    part (by rw [isWordPart_eq, inside, Bool.or_true])
  cases lexeme with
  | @keyword word _ _ =>
      obtain ⟨first, parts, spelling, starts, all⟩ := word.spelling_eq
      rw [spelling]
      exact List.forall_mem_cons.mpr ⟨start starts, fun character member => part (all _ member)⟩
  | identifier starts run =>
      exact List.forall_mem_cons.mpr ⟨start starts, fun character member => part (run.all _ member)⟩
  | integer run => exact fun character member => digit (run.all _ member)
  | float digits run =>
      intro character member
      rcases List.mem_append.mp member with whole | fraction
      · exact digit (digits _ whole)
      · rcases List.mem_cons.mp fraction with rfl | fraction
        · decide
        · exact digit (run.all _ fraction)
  | sign written =>
      obtain ⟨visible, noComment, -⟩ := Kind.class_of_character? written
      exact List.forall_mem_singleton.mpr ⟨visible, noComment⟩
  | unknown visible noComment => exact List.forall_mem_singleton.mpr ⟨visible, noComment⟩

theorem Lexeme.text_ne_nil {kind : Kind} {text rest : List Char} (lexeme : Lexeme kind text rest) :
    text ≠ [] := by
  cases lexeme with
  | @keyword word =>
      obtain ⟨first, parts, spelling, -⟩ := word.spelling_eq
      rw [spelling]
      exact List.cons_ne_nil first parts
  | integer _ nonempty => exact nonempty
  | float => exact List.append_ne_nil_of_right_ne_nil _ (List.cons_ne_nil _ _)
  | identifier | sign | unknown => exact List.cons_ne_nil _ _

theorem Cutting.exists_lexeme {source : List Char} {segments : List Segment}
    (cutting : Cutting source segments) (position : Position) :
    ∀ token ∈ Token.place position segments, ∃ rest, Lexeme token.kind token.text.toList rest := by
  induction cutting generalizing position with
  | nil => exact nofun
  | @cons _ rest _ fits _ induction =>
      rw [Token.place_cons]
      cases fits with
      | blank | comment => exact induction _
      | lexeme lexeme =>
          refine List.forall_mem_cons.mpr ⟨⟨rest, ?_⟩, induction _⟩
          rw [String.toList_ofList]
          exact lexeme

theorem exists_lexeme_of_mem_tokens {source : String} {token : Token}
    (member : token ∈ tokens source) : ∃ rest, Lexeme token.kind token.text.toList rest :=
  (cutting_segments source.toList).exists_lexeme .start token member

theorem kind_ne_endOfInput_of_mem {source : String} {token : Token}
    (member : token ∈ tokens source) : token.kind ≠ .special .endOfInput := by
  obtain ⟨rest, lexeme⟩ := exists_lexeme_of_mem_tokens member
  exact lexeme.kind_ne.2

/-- A gap in front of a layout becomes part of its first gap. -/
theorem Layout.behind_gap {gap last rest : List Char} {places : List Place} {position : Position}
    (layout : Layout places last rest) (placed : Placed (position.advance gap) places)
    (isGap : Gap gap rest) :
    ∃ others otherLast, Layout others otherLast (gap ++ rest) ∧
      others.map Place.token = places.map Place.token ∧ Placed position others := by
  cases layout with
  | last lastGap =>
      refine ⟨[], gap ++ last, .last (.append ?_ lastGap), rfl, trivial⟩
      rwa [List.append_nil]
  | @place place places _ rest placeGap later =>
      have text_eq : Place.text ⟨gap ++ place.gap, place.token⟩ = gap ++ place.text :=
        List.append_assoc gap place.gap place.token.text.toList
      have joined : Gap (gap ++ place.gap) (place.token.text.toList ++ rest) := by
        rw [Place.text, List.append_assoc] at isGap
        exact isGap.append placeGap
      refine ⟨⟨gap ++ place.gap, place.token⟩ :: places, last, ?_, rfl, ?_, ?_⟩
      · rw [← List.append_assoc, ← text_eq]
        exact .place joined later
      · rw [Position.advance_append]
        exact placed.1
      · rw [text_eq, Position.advance_append]
        exact placed.2

/-- Segments that are cut off one behind the other are laid out as places. -/
theorem Cutting.exists_layout {source : List Char} {segments : List Segment}
    (cutting : Cutting source segments) (position : Position) :
    ∃ places last, Layout places last source ∧
      Token.place position segments = places.map Place.token ∧ Placed position places := by
  induction cutting generalizing position with
  | nil => exact ⟨[], [], .last .nil, rfl, trivial⟩
  | @cons segment rest segments fits _ induction =>
      obtain ⟨places, last, layout, tokens, placed⟩ := induction (position.advance segment.text)
      rw [Token.place_cons, tokens]
      have ofGap (isGap : Gap segment.text rest) :=
        layout.behind_gap placed isGap
      cases fits with
      | blank white =>
          obtain ⟨others, otherLast, layout, same, placed⟩ := ofGap (.blank white .nil)
          exact ⟨others, otherLast, layout, same.symm, placed⟩
      | @comment body _ run =>
          have isGap : Gap ('#' :: (body ++ [])) rest := .comment run .nil
          rw [List.append_nil] at isGap
          obtain ⟨others, otherLast, layout, same, placed⟩ := ofGap isGap
          exact ⟨others, otherLast, layout, same.symm, placed⟩
      | @lexeme kind text _ _ =>
          have text_eq : Place.text ⟨[], ⟨kind, String.ofList text, position⟩⟩ = text :=
            String.toList_ofList
          refine ⟨⟨[], ⟨kind, String.ofList text, position⟩⟩ :: places, last, ?_, rfl, rfl, ?_⟩
          · have placed :=
              @Layout.place ⟨[], ⟨kind, String.ofList text, position⟩⟩ _ _ _ .nil layout
            rwa [text_eq] at placed
          · rw [text_eq]
            exact placed

/-- A source is laid out as its tokens, all of them lexemes. -/
theorem exists_layout_tokens (source : String) :
    ∃ places last, tokens source = places.map Place.token ∧ Layout places last source.toList ∧
      Placed .start places ∧
      ∀ place ∈ places, ∃ rest, Lexeme place.token.kind place.token.text.toList rest := by
  have cutting := cutting_segments source.toList
  obtain ⟨places, last, layout, tokens_eq, placed⟩ := cutting.exists_layout .start
  refine ⟨places, last, tokens_eq, layout, placed, fun place member => ?_⟩
  refine cutting.exists_lexeme .start place.token ?_
  rw [tokens_eq]
  exact List.mem_map_of_mem member

/-- A source is its tokens in their order with gaps around them, and exactly the characters that are
neither blank nor behind a number sign on their line lie in a token, each of them in one. -/
theorem tokenize_eq_tokens_of_layout (source : String) :
    ∃ (places : List Place) (last : List Char) (marker : Token),
      tokenize source = places.map Place.token ++ [marker] ∧ marker.kind = .special .endOfInput ∧
      (∀ place ∈ places, place.token.kind ≠ .special .endOfInput) ∧
      source.toList = places.flatMap Place.text ++ last ∧ Layout places last source.toList ∧
      ∀ front character back, source.toList = front ++ character :: back →
        ((∃! number, LiesIn places front.length number) ↔
          ¬isBlank character ∧ '#' ∉ lastLine (front ++ [character])) := by
  obtain ⟨places, last, tokens_eq, layout, -, lexemes⟩ := exists_layout_tokens source
  refine ⟨places, last, .endMarker (endPosition source), by rw [tokenize, tokens_eq], rfl,
    fun place member => (lexemes place member).choose_spec.kind_ne.2, layout.eq_flatMap_text,
    layout, ?_⟩
  intro front character back split
  constructor
  · rintro ⟨number, lies, -⟩
    have solid : ∀ place ∈ places, Solid place.token.text.toList := fun place member =>
      (lexemes place member).choose_spec.solid
    have noneOpen : CommentEnds [] source.toList := nofun
    exact layout.not_isBlank_of_liesIn solid noneOpen split lies
  · rintro ⟨visible, noComment⟩
    obtain ⟨number, lies⟩ := layout.exists_liesIn split visible noComment
    exact ⟨number, lies, fun other liesOther => liesOther.unique lies⟩

end Calculator
