import Calculator.Expression.Error
import Calculator.Proofs.Numeral.Integer

/-!
# Messages of errors

A message quotes names and texts as they are, even if they look like the words around them.  It is
still read in one way only: the position is found from the back, and the words at the front, none of
which begin with others, say what is quoted behind them.
-/

namespace Calculator

/-- The words with which a message begins. -/
inductive Opening
  | divisionByZero
  | moduloByZero
  | overflow
  /-- The name of a function follows. -/
  | domain
  | endOfTokens
  /-- The text that was found follows, if there is one. -/
  | expected (what : Expected)
  /-- The name that is not a function follows. -/
  | unknownName
  | nestingTooDeep
  deriving DecidableEq, Repr

namespace Opening

/-- The words themselves. -/
def words : Opening → List Char
  | divisionByZero => "division by zero".toList
  | moduloByZero => "modulo by zero".toList
  | overflow => "numeric overflow".toList
  | domain => "math domain error in ".toList
  | endOfTokens => "unexpected end of expression".toList
  | expected what => "expected ".toList ++ what.message
  | unknownName => "unknown identifier '".toList
  | nestingTooDeep => "function calls nested deeper than ".toList

/-- Every opening. -/
def all : List Opening :=
  [divisionByZero, moduloByZero, overflow, domain, endOfTokens, expected (.delimiter .leftParen),
    expected (.delimiter .comma), expected (.delimiter .rightParen), expected .expression,
    unknownName, nestingTooDeep]

theorem mem_all (opening : Opening) : opening ∈ all := by
  cases opening with
  | expected what =>
      cases what with
      | delimiter mark => cases mark <;> decide
      | expression => decide
  | _ => decide

/-- No opening begins with another one. -/
theorem eq_of_begins {left right : Opening} (begins : left.words <+: right.words) :
    left = right := by
  have free : ∀ left ∈ all, ∀ right ∈ all, left.words <+: right.words → left = right := by
    decide +kernel
  exact free left left.mem_all right right.mem_all begins

theorem append_inj {left right : Opening} {text other : List Char}
    (same : left.words ++ text = right.words ++ other) : left = right ∧ text = other := by
  have leftBegins : left.words <+: right.words ++ other := ⟨text, same⟩
  have rightBegins : right.words <+: right.words ++ other := List.prefix_append _ _
  obtain rfl : left = right := by
    rcases List.prefix_or_prefix_of_prefix leftBegins rightBegins with begins | begins
    · exact eq_of_begins begins
    · exact (eq_of_begins begins).symm
  exact ⟨rfl, List.append_cancel_left same⟩

end Opening

namespace Cause

/-- The words at the front of the message of a cause. -/
def opening : Cause → Opening
  | fault .divisionByZero => .divisionByZero
  | fault .moduloByZero => .moduloByZero
  | fault .overflow => .overflow
  | fault (.domain _) => .domain
  | endOfTokens => .endOfTokens
  | unexpected expected _ => .expected expected
  | unknownName _ => .unknownName
  | nestingTooDeep => .nestingTooDeep

/-- What follows the words at the front. -/
def quotation : Cause → List Char
  | fault (.domain function) => function.name.toList
  | unexpected _ (some found) => ", got '".toList ++ found.toList ++ ['\'']
  | unknownName name => name.toList ++ ['\'']
  | nestingTooDeep => Numeral.ofNat maxNesting
  | fault .divisionByZero | fault .moduloByZero | fault .overflow | endOfTokens
  | unexpected _ none => []

theorem message_eq (cause : Cause) : cause.message = cause.opening.words ++ cause.quotation := by
  cases cause with
  | fault reason =>
      cases reason with
      | domain function => rfl
      | divisionByZero | moduloByZero | overflow => exact (List.append_nil _).symm
  | endOfTokens => exact (List.append_nil _).symm
  | unexpected expected found =>
      cases found with
      | none =>
          change "expected ".toList ++ expected.message =
            "expected ".toList ++ expected.message ++ []
          rw [List.append_nil]
      | some found =>
          change "expected ".toList ++ expected.message ++ ", got '".toList ++ found.toList ++
              ['\''] =
            "expected ".toList ++ expected.message ++ (", got '".toList ++ found.toList ++ ['\''])
          simp only [List.append_assoc]
  | unknownName name =>
      change "unknown identifier '".toList ++ name.toList ++ ['\''] =
        "unknown identifier '".toList ++ (name.toList ++ ['\''])
      rw [List.append_assoc]
  | nestingTooDeep => rfl

end Cause

/-- The cause that an opening and what follows it stand for. -/
def Opening.cause? (quotation : List Char) : Opening → Option Cause
  | divisionByZero => some (.fault .divisionByZero)
  | moduloByZero => some (.fault .moduloByZero)
  | overflow => some (.fault .overflow)
  | domain => (Builtin.ofName? (.ofList quotation)).map fun function => .fault (.domain function)
  | endOfTokens => some .endOfTokens
  | expected what =>
    -- Seven characters stand in front of the text that was found, and a quote behind it.
    if quotation = [] then some (.unexpected what none)
    else some (.unexpected what (some (.ofList (quotation.drop 7).dropLast)))
  | unknownName => some (.unknownName (.ofList quotation.dropLast))
  | nestingTooDeep => some .nestingTooDeep

/-- Whatever is quoted, its cause is found again. -/
theorem Cause.cause?_opening (cause : Cause) :
    cause.opening.cause? cause.quotation = some cause := by
  cases cause with
  | fault reason =>
      cases reason with
      | domain function =>
          change (Builtin.ofName? (.ofList function.name.toList)).map _ = _
          rw [String.ofList_toList, Builtin.ofName?_name, Option.map_some]
      | divisionByZero | moduloByZero | overflow => rfl
  | endOfTokens => rfl
  | unexpected expected found =>
      cases found with
      | none => rfl
      | some found =>
          change some (Cause.unexpected expected
            (some (.ofList (found.toList ++ ['\'']).dropLast))) = _
          rw [List.dropLast_concat, String.ofList_toList]
  | unknownName name =>
      change some (Cause.unknownName (.ofList (name.toList ++ ['\'']).dropLast)) = _
      rw [List.dropLast_concat, String.ofList_toList]
  | nestingTooDeep => rfl

theorem Cause.eq_of_opening_eq {left right : Cause} (openings : left.opening = right.opening)
    (quotations : left.quotation = right.quotation) : left = right := by
  have read := left.cause?_opening
  rw [openings, quotations, right.cause?_opening] at read
  exact (Option.some.inj read).symm

theorem append_position_inj {text other : List Char} {m n : ℕ}
    (same : text ++ " at position ".toList ++ Numeral.ofNat m =
      other ++ " at position ".toList ++ Numeral.ofNat n) : text = other ∧ m = n :=
  Numeral.append_words_ofNat_inj rfl (by decide) same

/-- The message for an argument outside the domain of a function, whatever its name is. -/
def domainMessage (name : String) (position : ℕ) : List Char :=
  "math domain error in ".toList ++ name.toList ++ " at position ".toList ++ Numeral.ofNat position

/-- What a message tells: how it begins, what it quotes and where the error is. -/
structure Tells (message : List Char) (opening : Opening) (quotation : List Char)
    (position : ℕ) : Prop where
  message_eq :
    message = opening.words ++ quotation ++ " at position ".toList ++ Numeral.ofNat position

theorem EvalError.tells (error : EvalError) :
    Tells error.message error.cause.opening error.cause.quotation error.position :=
  ⟨by rw [message, error.cause.message_eq]⟩

theorem tells_domainMessage (name : String) (position : ℕ) :
    Tells (domainMessage name position) .domain name.toList position :=
  ⟨rfl⟩

/-- A message tells only one thing. -/
theorem Tells.unique {message quotation other : List Char} {left right : Opening} {m n : ℕ}
    (tells : Tells message left quotation m) (again : Tells message right other n) :
    left = right ∧ quotation = other ∧ m = n := by
  obtain ⟨texts, positions⟩ := append_position_inj (tells.message_eq.symm.trans again.message_eq)
  obtain ⟨openings, quotations⟩ := Opening.append_inj texts
  exact ⟨openings, quotations, positions⟩

/-- Errors with the same message have the same cause, whatever names and texts it quotes, and the
same position.  This does not depend on the names of functions: an argument outside the domain of a
function could be reported under any name, and the name would be known from the message. -/
theorem messages_identify_errors :
    (∀ left right : EvalError, left.message = right.message ↔ left = right) ∧
    (∀ (name : String) (position : ℕ) (error : EvalError),
      domainMessage name position = error.message ↔
        ∃ function : Builtin, function.name = name ∧
          error = ⟨.fault (.domain function), position⟩) ∧
    ∀ (name other : String) (position otherPosition : ℕ),
      domainMessage name position = domainMessage other otherPosition ↔
        name = other ∧ position = otherPosition := by
  refine ⟨fun left right => ⟨fun same => ?errors, congrArg _⟩,
    fun name position error => ⟨fun same => ?domain, ?named⟩,
    fun name other position otherPosition => ⟨fun same => ?names, ?again⟩⟩
  case errors =>
    have tells := left.tells
    rw [same] at tells
    obtain ⟨openings, quotations, positions⟩ := tells.unique right.tells
    exact (EvalError.mk.injEq ..).mpr ⟨Cause.eq_of_opening_eq openings quotations, positions⟩
  case domain =>
    have tells := tells_domainMessage name position
    rw [same] at tells
    obtain ⟨opening, quotation, rfl⟩ := tells.unique error.tells
    have read := error.cause.cause?_opening
    rw [← opening, ← quotation, Opening.cause?, String.ofList_toList,
      Option.map_eq_some_iff] at read
    obtain ⟨function, named, cause⟩ := read
    exact ⟨function, Builtin.name_eq_of_ofName? named,
      (EvalError.mk.injEq ..).mpr ⟨cause.symm, rfl⟩⟩
  case named =>
    rintro ⟨function, rfl, rfl⟩
    rfl
  case names =>
    have tells := tells_domainMessage name position
    rw [same] at tells
    obtain ⟨-, names, positions⟩ := tells.unique (tells_domainMessage other otherPosition)
    exact ⟨String.toList_injective names, positions⟩
  case again =>
    rintro ⟨rfl, rfl⟩
    rfl

end Calculator
