import Calculator.Proofs.Numeral.Integer
import Calculator.Proofs.Source.Lexeme
import Calculator.Token.Basic

/-!
# Written forms of tokens

The written form of a token quotes its text as it is, with quotes, newlines and whatever else is in
it, so that reading on from the first quote does not tell where the text ends.  It is still the form
of one token only: the position is found from the back, since the words in front of its numbers do
not end in digits, and the kind from the front, since no name of a kind has a comma in it.
-/

namespace Calculator

/-- A text and the position behind it are found again, whatever the text is. -/
theorem Position.append_inj {text other : List Char} {left right : Position}
    (same : text ++ "', position=(".toList ++ Numeral.ofNat left.line ++ ", ".toList ++
        Numeral.ofNat left.column ++ "))".toList =
      other ++ "', position=(".toList ++ Numeral.ofNat right.line ++ ", ".toList ++
        Numeral.ofNat right.column ++ "))".toList) : text = other ∧ left = right := by
  have open_ends := List.append_cancel_right same
  obtain ⟨fronts, columns⟩ := Numeral.append_words_ofNat_inj rfl (by decide) open_ends
  obtain ⟨texts, lines⟩ := Numeral.append_words_ofNat_inj rfl (by decide) fronts
  exact ⟨texts, (Position.mk.injEq ..).mpr ⟨lines, columns⟩⟩

namespace Kind

theorem run_name (kind : Kind) (rest : List Char) :
    Run (· ≠ ',') kind.name.toList (',' :: rest) := by
  have noComma : ∀ kind ∈ all, ',' ∉ kind.name.toList := by decide
  constructor
  · intro character member
    refine decide_eq_true fun comma => ?_
    exact noComma kind kind.mem_all (comma ▸ member)
  · intro character next
    obtain rfl := Option.some.inj next
    decide

theorem name_append_inj {left right : Kind} {text other : List Char}
    (same : left.name.toList ++ (", value='".toList ++ text) =
      right.name.toList ++ (", value='".toList ++ other)) : left = right ∧ text = other := by
  have names : left.name.toList = right.name.toList := by
    calc
      left.name.toList = (left.name.toList ++ (", value='".toList ++ text)).takeWhile (· ≠ ',') :=
        (left.run_name _).takeWhile_eq.symm
      _ = (right.name.toList ++ (", value='".toList ++ other)).takeWhile (· ≠ ',') := by rw [same]
      _ = right.name.toList := (right.run_name _).takeWhile_eq
  rw [names] at same
  have texts := List.append_cancel_left (List.append_cancel_left same)
  exact ⟨name_injective (String.toList_injective names), texts⟩

end Kind

namespace Token

/-- Tokens with the same rendering have the same kind, text and position, whatever their texts are,
and so even if a text looks like the end of a rendering. -/
theorem renderings_tell_tokens_apart (left right : Token) :
    left.render = right.render ↔
      left.kind = right.kind ∧ left.text = right.text ∧
        left.position.line = right.position.line ∧
        left.position.column = right.position.column := by
  constructor
  · intro same
    have renderings : left.rendering = right.rendering := String.ofList_injective same
    obtain ⟨fronts, positions⟩ := Position.append_inj renderings
    simp only [List.append_assoc] at fronts
    obtain ⟨kinds, texts⟩ := Kind.name_append_inj (List.append_cancel_left fronts)
    exact ⟨kinds, String.toList_injective texts, congrArg _ positions, congrArg _ positions⟩
  · rintro ⟨kinds, texts, lines, columns⟩
    have positions : left.position = right.position :=
      (Position.mk.injEq ..).mpr ⟨lines, columns⟩
    have tokens : left = right := (Token.mk.injEq ..).mpr ⟨kinds, texts, positions⟩
    rw [tokens]

/-- Two renderings in a row are the rendering of one token, whose text quotes all that stands
between the first text and the second position.  So it is only alone that a rendering can be read
back. -/
theorem exists_rendering_append (first second : Token) :
    ∃ token : Token, token.rendering = first.rendering ++ second.rendering := by
  refine ⟨⟨first.kind, .ofList (first.text.toList ++ "', position=(".toList ++
    Numeral.ofNat first.position.line ++ ", ".toList ++ Numeral.ofNat first.position.column ++
    "))".toList ++ "Token(type=".toList ++ second.kind.name.toList ++ ", value='".toList ++
    second.text.toList), second.position⟩, ?_⟩
  delta rendering
  simp only [String.toList_ofList, List.append_assoc]

end Token
end Calculator
