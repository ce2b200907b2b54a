import Calculator.Calculation
import Calculator.Command.Reading
import Calculator.Command.Timing
import Calculator.Token.Table
import Calculator.Value.Text

/-!
# Reports

A command prints to two streams and succeeds or fails.  The output holds tables and values; the
notes, one line each, hold errors, counts and the time that was taken.
-/

namespace Calculator

/-- How long the stages of a calculation took, in nanoseconds. -/
structure Durations where
  /-- Finding the tokens. -/
  tokenize : Nat
  /-- Evaluating them. -/
  evaluate : Nat

/-- One line beside the output. -/
inductive Note
  /-- A source that could not be read. -/
  | unreadable (label : List Char) (reason : ReadError)
  /-- The number of tokens of a source. -/
  | counted (label : List Char) (count : Nat)
  /-- An expression that has a value. -/
  | evaluated (expression : String)
  /-- An expression that has none. -/
  | failed (expression : String) (error : EvalError)
  deriving DecidableEq, Repr

/-- The text of a note, given how long its source took. -/
def Note.text (durations : Durations) : Note → List Char
  | unreadable label reason => label ++ ": ".toList ++ reason.message ++ ['\n']
  | counted label count =>
    label ++ ": ".toList ++ Numeral.ofNat count ++ " token(s) in ".toList ++
      milliseconds durations.tokenize ++ ['\n']
  | evaluated expression =>
    expression.toList ++ ": tokenize ".toList ++ milliseconds durations.tokenize ++
      ", evaluate ".toList ++ milliseconds durations.evaluate ++
      ", total ".toList ++ milliseconds (durations.tokenize + durations.evaluate) ++ ['\n']
  | failed expression error => expression.toList ++ ": ".toList ++ error.message ++ ['\n']

/-- What a command prints and whether it succeeds. -/
structure Report where
  /-- The output stream. -/
  output : List Char
  /-- The lines beside it. -/
  notes : List Note
  /-- Whether nothing failed. -/
  succeeded : Bool
  deriving DecidableEq, Repr

namespace Report

/-- The report of nothing. -/
def empty : Report := ⟨[], [], true⟩

/-- One report after another; both have to succeed. -/
def append (first second : Report) : Report :=
  ⟨first.output ++ second.output, first.notes ++ second.notes, first.succeeded && second.succeeded⟩

instance : Append Report := ⟨append⟩

@[simp]
theorem empty_append (report : Report) : empty ++ report = report := rfl

theorem append_assoc (first second third : Report) :
    first ++ second ++ third = first ++ (second ++ third) := by
  change append (append first second) third = append first (append second third)
  simp [append, Bool.and_assoc]

/-- The status with which a command ends. -/
def exitCode (report : Report) : Nat :=
  if report.succeeded then 0 else 1

/-- The report on all tokens of a source, of which the last one is not counted. -/
def ofTokens (label : List Char) (tokens : List Token) : Report :=
  ⟨Token.table tokens, [.counted label (tokens.length - 1)], true⟩

/-- The report on a source that may be unreadable. -/
def ofSource (label : List Char) : Except ReadError String → Report
  | .error reason => ⟨[], [.unreadable label reason], false⟩
  | .ok text => ofTokens label (tokenize text)

/-- The report on one expression.  Its table is printed only if it has a value. -/
def ofOutcome (showTokens : Bool) (expression : String) : Except EvalError Calculation → Report
  | .error error => ⟨[], [.failed expression error], false⟩
  | .ok calculation =>
    ⟨(if showTokens then Token.table calculation.tokens else []) ++
        expression.toList ++ " = ".toList ++ calculation.value.text ++ ['\n'],
      [.evaluated expression], true⟩

/-- The report on expressions in turn. -/
def ofExpressions (showTokens : Bool) (expressions : List String) : Report :=
  expressions.foldr
    (fun expression report => ofOutcome showTokens expression (calculate expression) ++ report)
    empty

@[simp]
theorem ofExpressions_nil (showTokens : Bool) : ofExpressions showTokens [] = empty := rfl

@[simp]
theorem ofExpressions_cons (showTokens : Bool) (expression : String) (later : List String) :
    ofExpressions showTokens (expression :: later) =
      ofOutcome showTokens expression (calculate expression) ++ ofExpressions showTokens later :=
  rfl

theorem ofExpressions_append (showTokens : Bool) (first second : List String) :
    ofExpressions showTokens (first ++ second) =
      ofExpressions showTokens first ++ ofExpressions showTokens second := by
  induction first with
  | nil => rfl
  | cons expression first induction =>
      rw [List.cons_append, ofExpressions_cons, induction, ofExpressions_cons, append_assoc]

/-- Expressions can be reported one by one. -/
theorem ofExpressions_eq_foldr (showTokens : Bool) (expressions : List String) :
    ofExpressions showTokens expressions =
      (expressions.map fun expression => ofExpressions showTokens [expression]).foldr
        (· ++ ·) empty := by
  induction expressions with
  | nil => rfl
  | cons expression later induction =>
      rw [List.map_cons, List.foldr_cons, ← induction, ← ofExpressions_append,
        List.singleton_append]

end Report

/-- The report of a command. -/
def Command.report (surroundings : Surroundings) : Command → Report
  | tokens source => .ofSource source.label (source.load surroundings)
  | eval showTokens expressions => .ofExpressions showTokens expressions

/-- The name and version of the program. -/
def versionText : List Char :=
  "lexcalc 0.1.0\n".toList

/-- The report of a request.  The text of a help page is the parser's and not part of a report. -/
def Request.report (surroundings : Surroundings) : Request → Report
  | run command => command.report surroundings
  | version => ⟨versionText, [], true⟩
  | help => .empty

/-- The report of a run with the given arguments.  If they do not fit there is none, and nothing is
read or evaluated. -/
def Report.ofArguments? (surroundings : Surroundings) (arguments : List String) : Option Report :=
  (Request.ofArguments? arguments).map (Request.report surroundings)

/-- The status with which a run ends; arguments that do not fit have one of their own. -/
def exitStatus : Option Report → Nat
  | some report => report.exitCode
  | none => 2

end Calculator
