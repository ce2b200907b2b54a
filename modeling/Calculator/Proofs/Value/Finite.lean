import Calculator.Proofs.Binary64.Finite
import Calculator.Proofs.Value.Power

/-!
# Finite results

The functions of a library may be infinite or have no value, but not within the domains for which
they are called, nor past the checks around powers.
-/

namespace Calculator

open Binary64 (Library hasFraction)

namespace Binary64

/-- A logarithm is finite for positive numbers, and has a value for the infinite one. -/
structure IsLogarithm (logarithm : Float → Float) : Prop where
  finite {x : Float} : 0 < x → x.isFinite → (logarithm x).isFinite
  infinite {x : Float} : 0 < x → x.isInf → (logarithm x).isNaN = false

/-- Where a library is finite, and where it may have no value. -/
structure Library.IsRegular (library : Library) : Prop where
  sin {x : Float} : x.isFinite → (library.sin x).isFinite
  cos {x : Float} : x.isFinite → (library.cos x).isFinite
  tan {x : Float} : x.isFinite → (library.tan x).isFinite
  log10 : IsLogarithm library.log10
  log : IsLogarithm library.log
  pow {base exponent : Float} : base.isNaN = false → exponent.isNaN = false →
    (library.pow base exponent).isNaN → base.isFinite ∧ base < 0 ∧ hasFraction exponent

end Binary64

namespace Value

/-- Whether a value is a float that is not a number, signaling or quiet. -/
def isNaN : Value → Bool
  | integer _ => false
  | float x => x.isNaN
  | signalingNaN => true

/-- Whether a value is a number and not infinite. -/
def isFinite : Value → Bool
  | integer _ => true
  | float x => x.isFinite
  | signalingNaN => false

theorem isNaN_toFloat (value : Value) : value.toFloat.isNaN = value.isNaN := by
  cases value with
  | integer n => exact Binary64.isNaN_of_isFinite (Binary64.isFinite_ofInt (natAbs_toInt_lt n))
  | float x => rfl
  | signalingNaN => rfl

theorem isNaN_of_isFinite {value : Value} (finite : value.isFinite) : value.isNaN = false := by
  cases value with
  | integer n => rfl
  | float x => exact Binary64.isNaN_of_isFinite finite
  | signalingNaN => cases finite

theorem isFinite_toFloat {value : Value} (finite : value.isFinite) : value.toFloat.isFinite := by
  cases value with
  | integer n => exact Binary64.isFinite_ofInt (natAbs_toInt_lt n)
  | float x => exact finite
  | signalingNaN => cases finite

/-- A power is an integer or one of floats, unless an operand signals. -/
theorem cases_of_powWith {power : Float → Float → Float} {base exponent value : Value}
    (result : powWith power base exponent = .ok value) :
    (∃ n, value = integer n) ∨ (base.isNaN ∨ exponent.isNaN) ∨
      floatPow power base.toFloat exponent.toFloat = .ok value := by
  unfold powWith at result
  split at result
  · split at result
    · rename_i m n natural
      have exact : ofInt (m.toInt ^ n.toInt.toNat) = .ok value := by
        rwa [power?_eq] at result
      obtain ⟨k, _, rfl⟩ := ofInt_eq_ok_iff.mp exact
      exact .inl ⟨k, rfl⟩
    · exact .inr (.inr result)
  · exact .inr (.inl (.inl rfl))
  · exact .inr (.inl (.inr rfl))
  · exact .inr (.inr result)

end Value

/-- An outcome has a value, and a finite one, if all arguments have. -/
structure IsContained {count : Nat} (arguments : Vector Value count)
    (outcome : Except Fault Value) : Prop where
  number {value : Value} : (∀ argument ∈ arguments, argument.isNaN = false) →
    outcome = .ok value → value.isNaN = false
  finite {value : Value} : (∀ argument ∈ arguments, argument.isFinite) →
    outcome = .ok value → value.isFinite

variable {count : Nat} {arguments : Vector Value count}

section Power

variable {library : Library} (regular : library.IsRegular)

include regular

/-- The checks of a power leave out every result that is not a number, and infinite ones of finite
operands. -/
theorem Value.isNaN_of_floatPow {base exponent : Float} {value : Value}
    (base_number : base.isNaN = false) (exponent_number : exponent.isNaN = false)
    (result : floatPow library.pow base exponent = .ok value) :
    value.isNaN = false ∧ (base.isFinite → exponent.isFinite → value.isFinite) := by
  unfold floatPow at result
  split at result
  · cases result
  split at result
  · cases result
  rename_i inside
  dsimp only at result
  split at result
  · cases result
  rename_i bounded
  cases result
  have number : (library.pow base exponent).isNaN = false := by
    refine Bool.eq_false_iff.mpr fun undefined => inside ?_
    obtain ⟨_, negative, fraction⟩ := regular.pow base_number exponent_number undefined
    rw [decide_eq_true negative, fraction]
    rfl
  refine ⟨number, fun base_finite exponent_finite => ?_⟩
  rw [base_finite, exponent_finite, Bool.and_true, Bool.and_true] at bounded
  exact Binary64.isFinite_of_not number (Bool.eq_false_iff.mpr bounded)

theorem Value.isContained_powWith {base exponent : Value} (base_mem : base ∈ arguments)
    (exponent_mem : exponent ∈ arguments) :
    IsContained arguments (base.powWith library.pow exponent) := by
  have contained {value : Value} (base_number : base.isNaN = false)
      (exponent_number : exponent.isNaN = false)
      (result : base.powWith library.pow exponent = .ok value) :
      value.isNaN = false ∧ (base.isFinite → exponent.isFinite → value.isFinite) := by
    rcases cases_of_powWith result with ⟨n, rfl⟩ | (undefined | undefined) | floats
    · exact ⟨rfl, fun _ _ => rfl⟩
    · exact absurd undefined (Bool.eq_false_iff.mp base_number)
    · exact absurd undefined (Bool.eq_false_iff.mp exponent_number)
    · obtain ⟨number, finite⟩ := isNaN_of_floatPow regular ((isNaN_toFloat base).trans base_number)
        ((isNaN_toFloat exponent).trans exponent_number) floats
      exact ⟨number, fun base_finite exponent_finite =>
        finite (isFinite_toFloat base_finite) (isFinite_toFloat exponent_finite)⟩
  constructor
  case number =>
    intro value numbers result
    exact (contained (numbers base base_mem) (numbers exponent exponent_mem) result).1
  case finite =>
    intro value finites result
    have base_finite := finites base base_mem
    have exponent_finite := finites exponent exponent_mem
    exact (contained (isNaN_of_isFinite base_finite) (isNaN_of_isFinite exponent_finite) result).2
      base_finite exponent_finite

end Power

variable {function : Builtin} {apply : Float → Float} {argument : Value}

theorem Builtin.isContained_onDomain {domain : Float → Bool} (member : argument ∈ arguments)
    (infinite : ∀ x : Float, domain x → x.isInf → (apply x).isNaN = false)
    (finite : ∀ x : Float, domain x → x.isFinite → (apply x).isFinite) :
    IsContained arguments (onDomain function domain apply argument) := by
  unfold onDomain
  split
  · rename_i inside
    constructor
    case number =>
      intro value numbers result
      cases result
      cases unbounded : argument.toFloat.isInf
      · have number := (Value.isNaN_toFloat argument).trans (numbers argument member)
        exact Binary64.isNaN_of_isFinite
          (finite _ inside (Binary64.isFinite_of_not number unbounded))
      · exact infinite _ inside unbounded
    case finite =>
      intro value finites result
      cases result
      exact finite _ inside (Value.isFinite_toFloat (finites argument member))
  · exact ⟨fun _ => nofun, fun _ => nofun⟩

theorem Builtin.isContained_bounded (member : argument ∈ arguments)
    (finite : ∀ {x : Float}, x.isFinite → (apply x).isFinite) :
    IsContained arguments (onDomain function (fun x => !x.isInf) apply argument) := by
  refine isContained_onDomain member (fun x bounded unbounded => ?_) fun _ _ => finite
  rw [unbounded] at bounded
  cases bounded

theorem Builtin.isContained_range {range : Float → Prop} [DecidablePred range]
    (member : argument ∈ arguments)
    (infinite : ∀ {x : Float}, range x → x.isInf → (apply x).isNaN = false)
    (finite : ∀ {x : Float}, range x → x.isFinite → (apply x).isFinite) :
    IsContained arguments
      (onDomain function (fun x => decide (range x) || x.isNaN) apply argument) := by
  have range_of_inside {x : Float} (number : x.isNaN = false)
      (inside : (decide (range x) || x.isNaN) = true) : range x := by
    rw [number, Bool.or_false] at inside
    exact of_decide_eq_true inside
  refine isContained_onDomain member (fun x inside unbounded => ?_) fun x inside bounded => ?_
  · exact infinite (range_of_inside (Binary64.isNaN_of_isInf unbounded) inside) unbounded
  · exact finite (range_of_inside (Binary64.isNaN_of_isFinite bounded) inside) bounded

theorem Value.isContained_abs (member : argument ∈ arguments) :
    IsContained arguments argument.abs := by
  cases argument with
  | integer n =>
      have whole {value : Value} (result : abs (integer n) = .ok value) :
          ∃ m, value = integer m := by
        obtain ⟨m, _, same⟩ := ofInt_eq_ok_iff.mp result
        exact ⟨m, same⟩
      constructor
      all_goals
        intro value _ result
        obtain ⟨m, rfl⟩ := whole result
        rfl
  | float x =>
      constructor
      case number =>
        intro value numbers result
        cases result
        exact (Binary64.isNaN_abs x).trans (numbers _ member)
      case finite =>
        intro value finites result
        cases result
        exact Binary64.isFinite_abs (finites _ member)
  | signalingNaN =>
      exact ⟨fun numbers => absurd (numbers _ member) nofun,
        fun finites => absurd (finites _ member) nofun⟩

/-- Functions and powers of arguments with a value have a value, if they have a result at all, and
a finite one for finite arguments. -/
theorem functions_and_powers_stay_finite {library : Library} (regular : library.IsRegular) :
    (∀ (function : Builtin) (arguments : Vector Value function.arity),
      IsContained arguments (function.callWith library arguments)) ∧
    ∀ base exponent : Value,
      IsContained #v[base, exponent] (base.powWith library.pow exponent) := by
  constructor
  · intro function arguments
    cases function with
    | sin => exact Builtin.isContained_bounded (Vector.getElem_mem _) regular.sin
    | cos => exact Builtin.isContained_bounded (Vector.getElem_mem _) regular.cos
    | tan => exact Builtin.isContained_bounded (Vector.getElem_mem _) regular.tan
    | sqrt =>
        exact Builtin.isContained_range (Vector.getElem_mem _)
          (fun nonneg _ => Binary64.isNaN_sqrt nonneg) Binary64.isFinite_sqrt
    | log =>
        exact Builtin.isContained_range (Vector.getElem_mem _) regular.log10.infinite
          regular.log10.finite
    | ln =>
        exact Builtin.isContained_range (Vector.getElem_mem _) regular.log.infinite
          regular.log.finite
    | abs => exact Value.isContained_abs (Vector.getElem_mem _)
    | pow =>
        exact Value.isContained_powWith regular (Vector.getElem_mem _) (Vector.getElem_mem _)
  · intro base exponent
    have base_mem : base ∈ #v[base, exponent] :=
      @Vector.getElem_mem _ _ #v[base, exponent] 0 Nat.two_pos
    have exponent_mem : exponent ∈ #v[base, exponent] :=
      @Vector.getElem_mem _ _ #v[base, exponent] 1 Nat.one_lt_two
    exact Value.isContained_powWith regular base_mem exponent_mem

/-- Powers of 1 and -1, and the other functions by their values at 0 or, for logarithms, at 1. -/
def unitLibrary : Library where
  sin _ := 0
  cos _ := 1
  tan _ := 0
  log10 _ := 0
  log _ := 0
  pow := Value.unitPower

theorem isLogarithm_zero : Binary64.IsLogarithm fun _ => 0 where
  finite _ _ := Binary64.isFinite_zero
  infinite _ _ := Binary64.isNaN_of_isFinite Binary64.isFinite_zero

theorem isRegular_unitLibrary : unitLibrary.IsRegular where
  sin _ := Binary64.isFinite_zero
  cos _ := Binary64.isFinite_one
  tan _ := Binary64.isFinite_zero
  log10 := isLogarithm_zero
  log := isLogarithm_zero
  pow {base exponent} _ _ undefined := by
    have number : (Value.unitPower base exponent).isNaN = false := by
      unfold Value.unitPower
      split
      · split <;> rfl
      · rfl
    exact absurd undefined (Bool.eq_false_iff.mp number)

/-- The cosine of 0 and the inverse of -1 are finite. -/
theorem cosine_and_inverse_stay_finite :
    unitLibrary.IsRegular ∧
    (∃ value, Builtin.cos.callWith unitLibrary #v[.integer 0] = .ok value ∧ value.isFinite) ∧
    ∃ value, Value.powWith unitLibrary.pow (.integer (-1)) (.integer (-1)) = .ok value ∧
      value.isNaN = false ∧ value.isFinite := by
  obtain ⟨functions, powers⟩ := functions_and_powers_stay_finite isRegular_unitLibrary
  have zero : ∀ argument ∈ #v[Value.integer 0], argument.isFinite := by decide
  have negative : (-1 : Int64).toInt < 0 := by decide
  obtain ⟨value, result, _⟩ :=
    Value.powWith_minus_one_of_negative_exponent Value.powerSigns_unitPower negative
  refine ⟨isRegular_unitLibrary, ⟨.float 1, ?_, ?_⟩, value, result, ?_, ?_⟩
  · rfl
  · exact (functions .cos #v[.integer 0]).finite zero rfl
  · exact (powers _ _).number (by decide) result
  · exact (powers _ _).finite (by decide) result

end Calculator
