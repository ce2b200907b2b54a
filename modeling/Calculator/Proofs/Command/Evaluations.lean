import Calculator.Command.Report
import Calculator.Proofs.Command.Timing

/-!
# Evaluations in turn

Expressions that are evaluated in one run are reported as if each of them were evaluated in a run of
its own.  The lines beside the output hold the times that were taken, and agree once these are
masked, whatever the expressions look like.
-/

namespace Calculator

namespace Note

/-- What notes are printed as; each of them is given the times that its source took. -/
inductive Printed : List Note → List Char → Prop
  | nil : Printed [] []
  | cons {note : Note} {notes : List Note} {text : List Char} (durations : Durations)
    (later : Printed notes text) : Printed (note :: notes) (note.text durations ++ text)

/-- A line without its times. -/
def maskedText (note : Note) : List Char :=
  maskTimings false (note.text ⟨0, 0⟩)

/-- Words in front of a timing after which it is masked, whatever stands in front of them. -/
def Introduces (words : List Char) : Prop :=
  ∀ text, Closes (text ++ words)

theorem introduces_of_divides (words : List Char) (mark : Char) (divides : DividesTimings mark) :
    Introduces (words ++ [mark, ' ']) := by
  intro text
  have closes := (closes_of_divides divides (text ++ words)).space
  simpa using closes

section Introduced

variable {words later : List Char} (introduces : Introduces words)

include introduces

/-- How long a timing took does not show once it is masked. -/
theorem maskTimings_introduced (text : List Char) (nanoseconds : ℕ) :
    maskTimings false (text ++ (words ++ (milliseconds nanoseconds ++ later))) =
      maskTimings false (text ++ words) ++ ("T ms".toList ++ maskTimings false later) := by
  rw [← List.append_assoc]
  exact (introduces text).maskTimings_milliseconds nanoseconds

theorem maskTimings_words (nanoseconds : ℕ) :
    maskTimings false (words ++ (milliseconds nanoseconds ++ later)) =
      maskTimings false words ++ ("T ms".toList ++ maskTimings false later) :=
  maskTimings_introduced introduces [] nanoseconds

end Introduced

theorem maskTimings_text (note : Note) (durations : Durations) :
    maskTimings false (note.text durations) = note.maskedText := by
  rw [maskedText]
  cases note with
  | unreadable label reason => rfl
  | counted label count =>
      have counting : Introduces " token(s) in ".toList :=
        introduces_of_divides " token(s) i".toList 'n' (by decide)
      change maskTimings false (label ++ ": ".toList ++ Numeral.ofNat count ++ _ ++ _ ++ _) =
        maskTimings false (label ++ ": ".toList ++ Numeral.ofNat count ++ _ ++ _ ++ _)
      simp only [List.append_assoc _ _ ['\n'], List.append_assoc _ " token(s) in ".toList]
      rw [maskTimings_introduced counting, maskTimings_introduced counting]
  | evaluated expression =>
      have tokenizing : Introduces ": tokenize ".toList :=
        introduces_of_divides ": tokeniz".toList 'e' (by decide)
      have evaluating : Introduces ", evaluate ".toList :=
        introduces_of_divides ", evaluat".toList 'e' (by decide)
      have adding : Introduces ", total ".toList :=
        introduces_of_divides ", tota".toList 'l' (by decide)
      change maskTimings false (expression.toList ++ _ ++ _ ++ _ ++ _ ++ _ ++ _ ++ _) =
        maskTimings false (expression.toList ++ _ ++ _ ++ _ ++ _ ++ _ ++ _ ++ _)
      simp only [List.append_assoc]
      simp only [maskTimings_introduced tokenizing, maskTimings_words evaluating,
        maskTimings_words adding]
  | failed expression error => rfl

theorem closes_text (note : Note) (durations : Durations) : Closes (note.text durations) := by
  have divides : DividesTimings '\n' := by decide
  cases note with
  | unreadable | counted | evaluated | failed => exact closes_of_divides divides _

/-- Lines are masked one by one. -/
theorem Printed.maskTimings_eq {notes : List Note} {text : List Char}
    (printed : Printed notes text) : maskTimings false text = notes.flatMap maskedText := by
  induction printed with
  | nil => exact maskTimings_nil
  | @cons note notes text durations later induction =>
      rw [closes_text, maskTimings_text, induction, List.flatMap_cons]

end Note

namespace Report

theorem exitCode_eq_one_iff (report : Report) : report.exitCode = 1 ↔ report.succeeded = false := by
  cases succeeded : report.succeeded <;> simp [exitCode, succeeded]

theorem exitCode_append (first second : Report) :
    (first ++ second).exitCode = 1 ↔ first.exitCode = 1 ∨ second.exitCode = 1 := by
  simp only [exitCode_eq_one_iff]
  exact Bool.and_eq_false_iff

theorem ofExpressions_singleton (showTokens : Bool) (expression : String) :
    ofExpressions showTokens [expression] =
      ofOutcome showTokens expression (calculate expression) := by
  rw [ofExpressions_cons, ofExpressions_nil]
  generalize ofOutcome showTokens expression (calculate expression) = report
  change append report empty = report
  simp [append, empty]

end Report

open Report (ofExpressions)

/-- A run on expressions prints what runs on the first and on the other ones print in turn, apart
from the times that are taken, and fails if one of them does.  A run on one expression fails exactly
if the expression has no value; nothing but its error is printed then. -/
theorem evaluations_in_turn (showTokens : Bool) :
    (∀ first second : List String,
      (ofExpressions showTokens (first ++ second)).output =
          (ofExpressions showTokens first).output ++ (ofExpressions showTokens second).output ∧
        (∀ whole front back,
          Note.Printed (ofExpressions showTokens (first ++ second)).notes whole →
          Note.Printed (ofExpressions showTokens first).notes front →
          Note.Printed (ofExpressions showTokens second).notes back →
          maskTimings false whole = maskTimings false front ++ maskTimings false back) ∧
        ((ofExpressions showTokens (first ++ second)).exitCode = 1 ↔
          (ofExpressions showTokens first).exitCode = 1 ∨
            (ofExpressions showTokens second).exitCode = 1)) ∧
    ∀ expression : String,
      ((ofExpressions showTokens [expression]).exitCode = 1 ↔
        ∃ error, calculate expression = .error error) ∧
      ∀ error, calculate expression = .error error →
        (ofExpressions showTokens [expression]).output = [] ∧
        ∀ printed, Note.Printed (ofExpressions showTokens [expression]).notes printed →
          printed = expression.toList ++ ": ".toList ++ error.message ++ ['\n'] := by
  refine ⟨fun first second => ?several, fun expression => ?single⟩
  case several =>
    rw [Report.ofExpressions_append]
    refine ⟨rfl, fun whole front back wholePrinted frontPrinted backPrinted => ?_,
      Report.exitCode_append _ _⟩
    rw [wholePrinted.maskTimings_eq, frontPrinted.maskTimings_eq, backPrinted.maskTimings_eq,
      ← List.flatMap_append]
    rfl
  case single =>
    rw [Report.ofExpressions_singleton, Report.exitCode_eq_one_iff]
    cases calculate expression with
    | error error =>
        refine ⟨iff_of_true rfl ⟨error, rfl⟩, fun _ found => ?_⟩
        obtain rfl := Except.error.inj found
        refine ⟨rfl, fun printed isPrinted => ?_⟩
        cases isPrinted with
        | cons durations later =>
            cases later
            exact List.append_nil _
    | ok calculation => exact ⟨iff_of_false nofun nofun, nofun⟩

/-- The lines for `1` and `1/0` in one run, and in runs of their own that take other times. -/
theorem evaluations_of_number_and_quotient :
    (∃ whole front back,
      (Note.Printed (ofExpressions true ["1", "1/0"]).notes whole ∧
        Note.Printed (ofExpressions true ["1"]).notes front ∧
        Note.Printed (ofExpressions true ["1/0"]).notes back) ∧
      front = "1: tokenize 0.0120 ms, evaluate 0.0000 ms, total 0.0120 ms\n".toList ∧
      back = "1/0: division by zero at position 1\n".toList ∧
      whole = "1: tokenize 0.0010 ms, evaluate 0.0020 ms, total 0.0030 ms\n".toList ++ back ∧
      maskTimings false whole = maskTimings false front ++ maskTimings false back) ∧
    calculate "1/0" = .error ⟨.fault .divisionByZero, 1⟩ ∧
      (ofExpressions true ["1/0"]).output = [] := by
  obtain ⟨several, single⟩ := evaluations_in_turn true
  have number : (ofExpressions true ["1"]).notes = [.evaluated "1"] := by decide +kernel
  have quotient : (ofExpressions true ["1/0"]).notes =
      [.failed "1/0" ⟨.fault .divisionByZero, 1⟩] := by decide +kernel
  have both : (ofExpressions true ["1", "1/0"]).notes =
      [.evaluated "1", .failed "1/0" ⟨.fault .divisionByZero, 1⟩] := by decide +kernel
  have whole : Note.Printed [.evaluated "1", .failed "1/0" ⟨.fault .divisionByZero, 1⟩] _ :=
    .cons ⟨1000, 2000⟩ (.cons ⟨0, 0⟩ .nil)
  have front : Note.Printed [.evaluated "1"] _ := .cons ⟨12000, 0⟩ .nil
  have back : Note.Printed [.failed "1/0" ⟨.fault .divisionByZero, 1⟩] _ := .cons ⟨0, 0⟩ .nil
  rw [← both] at whole
  rw [← number] at front
  rw [← quotient] at back
  refine ⟨⟨_, _, _, ⟨whole, front, back⟩, by decide +kernel, by decide +kernel, by decide +kernel,
    (several ["1"] ["1/0"]).2.1 _ _ _ whole front back⟩, ?_⟩
  obtain ⟨error, failed⟩ := (single "1/0").1.mp (by decide +kernel)
  have reported : (ofExpressions true ["1/0"]).notes = [.failed "1/0" error] := by
    rw [Report.ofExpressions_singleton, failed]
    rfl
  rw [quotient] at reported
  cases reported
  exact ⟨failed, ((single "1/0").2 _ failed).1⟩

end Calculator
