import Mathlib.Data.List.Basic
import Mathlib.Data.List.TakeWhile
import Calculator.Command.Timing
import Calculator.Proofs.Numeral.Integer

/-!
# Masked timings

A timing consists of digits, a point, a space and the letters of its unit.  Any other character
therefore divides a text into parts that are masked one by one, whatever they look like.  Behind
such a character all timings are masked alike.
-/

namespace Calculator

/-- The text of a timing: digits, if there are any, a point, four digits and the unit. -/
inductive IsTiming : List Char → Prop
  | intro {whole fraction : List Char} (wholeDigits : ∀ character ∈ whole, character.isDigit)
    (fractionDigits : ∀ character ∈ fraction, character.isDigit) (places : fraction.length = 4) :
    IsTiming (whole ++ '.' :: (fraction ++ " ms".toList))

/-- A character that is in no timing. -/
def DividesTimings (mark : Char) : Prop :=
  ¬mark.isDigit ∧ mark ∉ ". ms".toList

instance (mark : Char) : Decidable (DividesTimings mark) :=
  inferInstanceAs (Decidable (_ ∧ _))

variable {text rest later : List Char} {mark : Char} {insideNumber : Bool}

theorem IsTiming.not_mem {timing : List Char} (isTiming : IsTiming timing)
    (divides : DividesTimings mark) : mark ∉ timing := by
  obtain ⟨noDigit, noMark⟩ := divides
  obtain ⟨wholeDigits, fractionDigits, -⟩ := isTiming
  intro member
  simp only [List.mem_append, List.mem_cons] at member
  rcases member with digit | rfl | digit | unit
  · exact noDigit (wholeDigits mark digit)
  · exact noMark (by decide)
  · exact noDigit (fractionDigits mark digit)
  · exact noMark (List.mem_cons_of_mem _ unit)

theorem afterTiming?_of_isTiming {timing : List Char} (isTiming : IsTiming timing) :
    afterTiming? (timing ++ rest) = some rest := by
  obtain ⟨wholeDigits, fractionDigits, places⟩ := isTiming
  rename_i whole fraction
  obtain ⟨d₁, d₂, d₃, d₄, rfl⟩ : ∃ d₁ d₂ d₃ d₄, fraction = [d₁, d₂, d₃, d₄] :=
    List.length_eq_four.mp places
  have point : (whole ++ '.' :: ([d₁, d₂, d₃, d₄] ++ " ms".toList) ++ rest).dropWhile Char.isDigit =
      '.' :: d₁ :: d₂ :: d₃ :: d₄ :: ' ' :: 'm' :: 's' :: rest := by
    rw [List.append_assoc, List.dropWhile_append_of_pos wholeDigits]
    rfl
  rw [afterTiming?, point]
  exact if_pos (List.all_eq_true.mpr fractionDigits)

theorem exists_isTiming_of_afterTiming? (timed : afterTiming? text = some rest) :
    ∃ timing, IsTiming timing ∧ text = timing ++ rest := by
  have parts := List.takeWhile_append_dropWhile (p := Char.isDigit) (l := text)
  unfold afterTiming? at timed
  split at timed
  · rename_i d₁ d₂ d₃ d₄ behind split
    split at timed
    · rename_i digits
      obtain rfl := Option.some.inj timed
      have wholeDigits : ∀ character ∈ text.takeWhile Char.isDigit, character.isDigit :=
        fun character member => List.mem_takeWhile_imp member
      refine ⟨_, .intro wholeDigits (List.all_eq_true.mp digits) rfl, ?_⟩
      rw [split] at parts
      rw [List.append_assoc]
      exact parts.symm
    · cases timed
  · cases timed

/-- A timing at the front of a text is all in front of what divides timings. -/
theorem afterTiming?_append (divides : DividesTimings mark) :
    afterTiming? (text ++ mark :: later) = (afterTiming? text).map (· ++ mark :: later) := by
  cases timed : afterTiming? text with
  | some rest =>
      obtain ⟨timing, isTiming, rfl⟩ := exists_isTiming_of_afterTiming? timed
      rw [List.append_assoc, afterTiming?_of_isTiming isTiming, Option.map_some]
  | none =>
      rw [Option.map_none, Option.eq_none_iff_forall_ne_some]
      intro rest timed_later
      obtain ⟨timing, isTiming, split⟩ := exists_isTiming_of_afterTiming? timed_later
      rcases List.append_eq_append_iff.mp split with ⟨front, rfl, behind⟩ | ⟨behind, rfl, -⟩
      · cases front with
        | nil =>
            have found : afterTiming? (text ++ [] ++ []) = some [] :=
              afterTiming?_of_isTiming isTiming
            rw [List.append_nil, List.append_nil, timed] at found
            cases found
        | cons first front =>
            obtain ⟨rfl, -⟩ := List.cons.inj behind
            exact isTiming.not_mem divides (by simp)
      · rw [afterTiming?_of_isTiming isTiming] at timed
        cases timed

@[simp]
theorem maskTimings_nil : maskTimings insideNumber [] = [] := by
  rw [maskTimings]

theorem maskTimings_of_timed (timed : afterTiming? text = some rest) :
    maskTimings false text = "T ms".toList ++ maskTimings false rest := by
  cases text with
  | nil => cases timed
  | cons first later =>
      rw [maskTimings]
      split
      · rename_i found
        rw [if_neg (by decide), timed] at found
        obtain rfl := Option.some.inj found
        rfl
      · rename_i found
        rw [if_neg (by decide), timed] at found
        cases found

theorem maskTimings_of_untimed {first : Char}
    (untimed : insideNumber = true ∨ afterTiming? (first :: later) = none) :
    maskTimings insideNumber (first :: later) = first :: maskTimings first.isDigit later := by
  rw [maskTimings]
  split
  · rename_i found
    rcases untimed with rfl | untimed
    · cases found
    · rw [untimed, ite_self] at found
      cases found
  · rfl

/-- The parts of a text on either side of what divides timings are masked one by one. -/
theorem maskTimings_append (divides : DividesTimings mark) (insideNumber : Bool)
    (text : List Char) :
    maskTimings insideNumber (text ++ mark :: later) =
      maskTimings insideNumber text ++ mark :: maskTimings false later := by
  induction insideNumber, text using maskTimings.induct with
  | case1 insideNumber =>
      have untimed : afterTiming? ([] ++ mark :: later) = none := by
        rw [afterTiming?_append divides]
        rfl
      rw [List.nil_append, maskTimings_of_untimed (.inr untimed), maskTimings_nil,
        Bool.eq_false_iff.mpr divides.1]
      rfl
  | case2 insideNumber first text rest timed induction =>
      cases insideNumber with
      | true => cases timed
      | false =>
          have found : afterTiming? (first :: text) = some rest := timed
          have later_found : afterTiming? (first :: text ++ mark :: later) =
              some (rest ++ mark :: later) := by
            rw [afterTiming?_append divides, found, Option.map_some]
          rw [maskTimings_of_timed later_found, maskTimings_of_timed found, induction,
            List.append_assoc]
  | case3 insideNumber first text untimed induction =>
      have found : insideNumber = true ∨ afterTiming? (first :: text) = none := by
        cases insideNumber with
        | true => exact .inl rfl
        | false => exact .inr untimed
      have later_found : insideNumber = true ∨
          afterTiming? (first :: (text ++ mark :: later)) = none := by
        refine found.imp id fun found => ?_
        rw [← List.cons_append, afterTiming?_append divides, found, Option.map_none]
      rw [List.cons_append, maskTimings_of_untimed later_found, maskTimings_of_untimed found,
        induction, List.cons_append]

/-- What follows a text is masked on its own. -/
def Closes (text : List Char) : Prop :=
  ∀ insideNumber later, maskTimings insideNumber (text ++ later) =
    maskTimings insideNumber text ++ maskTimings false later

theorem closes_of_divides (divides : DividesTimings mark) (text : List Char) :
    Closes (text ++ [mark]) := by
  intro insideNumber later
  rw [List.append_assoc, List.singleton_append, maskTimings_append divides,
    maskTimings_append divides, maskTimings_nil, List.append_assoc, List.singleton_append]

theorem Closes.space (closes : Closes text) : Closes (text ++ [' ']) := by
  have spaced (later : List Char) : maskTimings false (' ' :: later) =
      ' ' :: maskTimings false later :=
    maskTimings_of_untimed (.inr rfl)
  intro insideNumber later
  rw [List.append_assoc, List.singleton_append, closes, closes, spaced, spaced, maskTimings_nil,
    List.append_assoc, List.singleton_append]

theorem isTiming_milliseconds (nanoseconds : ℕ) : IsTiming (milliseconds nanoseconds) := by
  have bound : (nanoseconds + 50) / 100 % 10000 < 10 ^ 4 := Nat.mod_lt _ (by decide)
  have places : ((Numeral.ofNat ((nanoseconds + 50) / 100 % 10000)).leftpad 4 '0').length = 4 := by
    rw [List.length_leftpad]
    exact max_eq_left ((Numeral.length_ofNat_le_iff (by decide)).mpr bound)
  have timing := IsTiming.intro (@Numeral.isDigit_of_mem_ofNat ((nanoseconds + 50) / 100 / 10000))
    Numeral.isDigit_of_mem_leftpad places
  rw [milliseconds]
  simpa using timing

/-- A timing behind a closed text is masked, however long it took. -/
theorem Closes.maskTimings_milliseconds (closes : Closes text) (nanoseconds : ℕ) :
    maskTimings insideNumber (text ++ (milliseconds nanoseconds ++ later)) =
      maskTimings insideNumber text ++ ("T ms".toList ++ maskTimings false later) := by
  rw [closes, maskTimings_of_timed (afterTiming?_of_isTiming (isTiming_milliseconds nanoseconds))]

end Calculator
