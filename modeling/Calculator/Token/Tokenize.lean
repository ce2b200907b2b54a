import Calculator.Source.Segment
import Calculator.Token.Basic

/-!
# The tokens of a source text

Every lexeme becomes a token at the position that the text before it leads to; blanks and comments
only move the position.  A complete token list ends with a marker just after the last character.
-/

namespace Calculator

/-- The token that a segment at a given position stands for. -/
def Segment.token? (position : Position) : Segment → Option Token
  | lexeme kind text => some ⟨kind, String.ofList text, position⟩
  | blank _ | comment _ => none

namespace Token

/-- Places segments from a position on and puts their tokens after earlier ones, which come last
first. -/
def placeOnto (earlier : List Token) (position : Position) : List Segment → List Token
  | [] => earlier.reverse
  | segment :: later =>
    placeOnto ((segment.token? position).toList ++ earlier) (position.advance segment.text) later

/-- The tokens of segments that are laid out from a position on. -/
def place (position : Position) (segments : List Segment) : List Token :=
  placeOnto [] position segments

theorem placeOnto_append (later earlier : List Token) (position : Position)
    (segments : List Segment) :
    placeOnto (later ++ earlier) position segments =
      earlier.reverse ++ placeOnto later position segments := by
  induction segments generalizing later position with
  | nil => simp [placeOnto]
  | cons segment segments induction =>
      rw [placeOnto, ← List.append_assoc]
      exact induction _ _

@[simp]
theorem place_nil (position : Position) : place position [] = [] := rfl

theorem place_cons (position : Position) (segment : Segment) (segments : List Segment) :
    place position (segment :: segments) =
      (segment.token? position).toList ++ place (position.advance segment.text) segments := by
  rw [place, placeOnto]
  have reordered := placeOnto_append [] ((segment.token? position).toList)
    (position.advance segment.text) segments
  rw [List.append_nil]
  rw [List.nil_append] at reordered
  rw [reordered]
  cases segment.token? position <;> rfl

theorem place_append (position : Position) (left right : List Segment) :
    place position (left ++ right) =
      place position left ++ place (position.advance (left.flatMap Segment.text)) right := by
  induction left generalizing position with
  | nil => rfl
  | cons segment left induction =>
      simp [place_cons, induction, Position.advance_append]

end Token

/-- The tokens of a source text, without an end marker. -/
def tokens (source : String) : List Token :=
  Token.place .start (Segment.segments source.toList)

/-- The place just after a source text. -/
def endPosition (source : String) : Position :=
  Position.start.advance source.toList

/-- The tokens of a source text and the end marker. -/
def tokenize (source : String) : List Token :=
  tokens source ++ [Token.endMarker (endPosition source)]

end Calculator
