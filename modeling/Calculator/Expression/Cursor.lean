import Calculator.Expression.Error
import Calculator.Token.Basic

/-!
# Reading tokens

A cursor stands between two tokens of a list.  A reader takes tokens from a cursor on, at least one
whenever it succeeds; that is what ends every repetition.
-/

namespace Calculator

theorem bind_eq_ok_iff {ε α β : Type} {first : Except ε α} {second : α → Except ε β} {result : β} :
    (first >>= second) = .ok result ↔ ∃ value, first = .ok value ∧ second value = .ok result := by
  cases first with
  | error error => exact ⟨nofun, nofun⟩
  | ok value =>
      constructor
      · exact fun ended => ⟨value, rfl, ended⟩
      · rintro ⟨_, same, ended⟩
        cases same
        exact ended

theorem bind_eq_error_iff {ε α β : Type} {first : Except ε α} {second : α → Except ε β}
    {error : ε} :
    (first >>= second) = .error error ↔
      first = .error error ∨ ∃ value, first = .ok value ∧ second value = .error error := by
  cases first with
  | error other =>
      constructor
      · exact fun same => .inl (congrArg _ (Except.error.inj same))
      · rintro (same | ⟨_, same, _⟩)
        · exact congrArg _ (Except.error.inj same)
        · cases same
  | ok value =>
      constructor
      · exact fun failed => .inr ⟨value, rfl, failed⟩
      · rintro (same | ⟨_, same, failed⟩)
        · cases same
        · cases same
          exact failed

theorem mapError_eq_ok_iff {ε ε' α : Type} {result : Except ε α} {relabel : ε → ε'} {value : α} :
    result.mapError relabel = .ok value ↔ result = .ok value := by
  cases result with
  | error => exact ⟨nofun, nofun⟩
  | ok found => exact ⟨fun same => congrArg _ (Except.ok.inj same), fun same => same ▸ rfl⟩

theorem mapError_eq_error_iff {ε ε' α : Type} {result : Except ε α} {relabel : ε → ε'}
    {error : ε'} :
    result.mapError relabel = .error error ↔
      ∃ cause, result = .error cause ∧ relabel cause = error := by
  cases result with
  | error cause =>
      constructor
      · exact fun same => ⟨cause, rfl, Except.error.inj same⟩
      · rintro ⟨_, same, rfl⟩
        rw [Except.error.inj same]
        rfl
  | ok value => exact ⟨nofun, nofun⟩

/-- A place in a token list. -/
structure Cursor where
  /-- Number of tokens before the place. -/
  index : Nat
  /-- The tokens after the place. -/
  rest : List Token

/-- How tightly an operator binds. -/
inductive Level
  | sum
  | product
  | power
  deriving DecidableEq, Repr

/-- The level of an operator. -/
def Operator.level : Operator → Level
  | plus | minus => .sum
  | multiply | divide | modulo => .product
  | power => .power

namespace Cursor

/-- The operator of a level that comes next, with the place after it. -/
def operator? (level : Level) : Cursor → Option (Operator × Cursor)
  | ⟨_, []⟩ => none
  | ⟨index, token :: rest⟩ =>
    match token.kind with
    | .operator sign => if sign.level = level then some (sign, ⟨index + 1, rest⟩) else none
    | _ => none

/-- The place after a delimiter that has to come next. -/
def expect (mark : Delimiter) : Cursor → Except EvalError Cursor
  | ⟨index, []⟩ => .error ⟨.unexpected (.delimiter mark) none, index⟩
  | ⟨index, token :: rest⟩ =>
    if token.kind = mark.kind then .ok ⟨index + 1, rest⟩
    else .error ⟨.unexpected (.delimiter mark) (some token.text), index⟩

theorem length_of_operator? {level : Level} {before after : Cursor} {sign : Operator}
    (found : before.operator? level = some (sign, after)) :
    before.rest.length = after.rest.length + 1 := by
  revert found
  fun_cases operator? level before with
  | case1 => simp
  | case2 index token rest next kind bound =>
      intro found
      obtain ⟨rfl, rfl⟩ := Prod.mk.inj (Option.some.inj found)
      rfl
  | case3 => simp
  | case4 => simp

theorem length_of_expect {mark : Delimiter} {before after : Cursor}
    (found : before.expect mark = .ok after) :
    before.rest.length = after.rest.length + 1 := by
  revert found
  fun_cases expect mark before with
  | case1 => simp
  | case2 index token rest kind =>
      intro found
      obtain rfl := Except.ok.inj found
      rfl
  | case3 => simp

end Cursor

/-- A way to read something from a cursor on. -/
structure Reader (α : Type) where
  /-- What is read and the place after it, or why nothing can be read. -/
  run : Cursor → Except EvalError (α × Cursor)
  /-- At least one token is taken. -/
  shortens : ∀ {before after : Cursor} {value : α},
    run before = .ok (value, after) → after.rest.length < before.rest.length

end Calculator
