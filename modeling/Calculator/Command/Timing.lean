import Calculator.Numeral.Integer

/-!
# Timings

Durations are reported in milliseconds with four decimals.  Since no two runs take the same time, a
report can be compared with another one only after its timings are masked.
-/

namespace Calculator

/-- A duration in nanoseconds as milliseconds with four decimals, a half rounded up. -/
def milliseconds (nanoseconds : Nat) : List Char :=
  let units := (nanoseconds + 50) / 100
  Numeral.ofNat (units / 10000) ++ '.' :: (Numeral.ofNat (units % 10000)).leftpad 4 '0' ++
    " ms".toList

/-- The text after a timing, if there is a timing at its front: digits, if any, a point, four digits
and the unit. -/
def afterTiming? (text : List Char) : Option (List Char) :=
  match text.dropWhile Char.isDigit with
  | '.' :: d₁ :: d₂ :: d₃ :: d₄ :: ' ' :: 'm' :: 's' :: rest =>
    if [d₁, d₂, d₃, d₄].all Char.isDigit then some rest else none
  | _ => none

theorem length_of_afterTiming? {text rest : List Char} (timed : afterTiming? text = some rest) :
    rest.length < text.length := by
  have parts := congrArg List.length
    (List.takeWhile_append_dropWhile (p := Char.isDigit) (l := text))
  rw [List.length_append] at parts
  unfold afterTiming? at timed
  split at timed
  · rename_i split
    split at timed
    · obtain rfl := Option.some.inj timed
      simp only [split, List.length_cons] at parts
      omega
    · cases timed
  · cases timed

/-- Replaces every timing by a placeholder.  A timing does not start inside a number. -/
def maskTimings (insideNumber : Bool) (text : List Char) : List Char :=
  match text with
  | [] => []
  | first :: later =>
    match _timed : if insideNumber then none else afterTiming? (first :: later) with
    | some rest => "T ms".toList ++ maskTimings false rest
    | none => first :: maskTimings first.isDigit later
termination_by text.length
decreasing_by
  · split at _timed
    · cases _timed
    · exact length_of_afterTiming? _timed
  · exact Nat.lt_succ_self _

end Calculator
