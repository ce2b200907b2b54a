import Mathlib
import Calculator.Proofs.Binary64.Rounding

/-!
# Parts of floats

Classes and comparisons of floats are read off their parts, and parts are packed into a float and
taken out again.  Numbers whose exponent is too large become infinite then, but nothing becomes a
float that is not a number.  Of all parts of one number a float has the canonical ones.

The lemmas on the fields of packed floats come with Mathlib as a whole and with no part of it, so it
is imported whole here.
-/

namespace Calculator
namespace Binary64

open Float.Model (UnpackedFloat Format)
open Float.Model.UnpackedFloat (Sign packComponents unpackSign_packComponents
  packComponents_unpackSign_unpackExponent_unpackMantissa)

theorem unpack_pack (parts : UnpackedFloat) :
    unpack (pack parts) =
      UnpackedFloat.unpack .binary64 (UnpackedFloat.pack .binary64 parts) :=
  rfl

theorem isNaN_eq (x : Float) : x.isNaN = (unpack x).isNaN :=
  rfl

theorem isInf_eq (x : Float) : x.isInf = (unpack x).isInf :=
  rfl

theorem isFinite_eq (x : Float) : x.isFinite = (unpack x).isFinite :=
  rfl

theorem lt_iff (x y : Float) : x < y ↔ (unpack x).lt (unpack y) :=
  decide_eq_true_iff

theorem le_iff (x y : Float) : x ≤ y ↔ (unpack x).le (unpack y) :=
  decide_eq_true_iff

theorem beq_eq (x y : Float) : (x == y) = (unpack x).beq (unpack y) :=
  rfl

theorem unpack_zero : unpack 0 = .zero .positive :=
  rfl

theorem not_lt_zero_of_zero_lt {x : Float} (positive : 0 < x) : ¬x < 0 := by
  intro negative
  rw [lt_iff, unpack_zero] at positive negative
  cases parts : unpack x <;> rw [parts] at positive negative
  case notANumber => cases positive
  case infinity sign | finite sign _ _ _ =>
    cases sign
    · cases positive
    · cases negative
  case zero => cases positive

theorem then_compare_swap (e f : Int) (m n : Nat) :
    (compare f e).then (compare n m) = ((compare e f).then (compare m n)).swap := by
  rw [Ordering.swap_then, Int.compare_swap, Nat.compare_swap]

theorem compare_swap (left right : UnpackedFloat) :
    right.compare left = (left.compare right).map Ordering.swap := by
  cases left with
  | notANumber => cases right <;> rfl
  | infinity side | zero side =>
      cases side <;> cases right with
      | notANumber => rfl
      | infinity other | zero other | finite other => cases other <;> rfl
  | finite side mantissa exponent =>
      cases side <;> cases right with
      | notANumber => rfl
      | infinity other | zero other => cases other <;> rfl
      | finite other otherMantissa otherExponent =>
          have swapped := then_compare_swap exponent otherExponent mantissa otherMantissa
          cases other
          all_goals first
            | rfl
            | exact congrArg some swapped
            | exact congrArg (some ·.swap) swapped

theorem not_lt_of_le {x y : Float} (less : x ≤ y) : ¬y < x := by
  rw [le_iff, UnpackedFloat.le] at less
  rw [lt_iff, UnpackedFloat.lt, compare_swap (unpack x)]
  cases compared : (unpack x).compare (unpack y) with
  | none => nofun
  | some order =>
      rw [compared] at less
      cases order
      case gt => cases less
      all_goals nofun

theorem zero_lt_iff {x : Float} :
    0 < x ↔ unpack x = .infinity .positive ∨
      ∃ mantissa exponent positive, unpack x = .finite .positive mantissa exponent positive := by
  rw [lt_iff, unpack_zero]
  cases unpack x with
  | notANumber => exact iff_of_false nofun nofun
  | zero => exact iff_of_false nofun nofun
  | infinity sign =>
      cases sign
      · exact iff_of_false nofun nofun
      · exact iff_of_true rfl (.inl rfl)
  | finite sign =>
      cases sign
      · exact iff_of_false nofun nofun
      · exact iff_of_true rfl (.inr ⟨_, _, _, rfl⟩)

theorem zero_lt_of_lt_of_le {x y : Float} (positive : 0 < x) (less : x ≤ y) : 0 < y := by
  rw [le_iff] at less
  rw [lt_iff, unpack_zero]
  rcases zero_lt_iff.mp positive with parts | ⟨_, _, _, parts⟩
  all_goals
    rw [parts] at less
    cases bound : unpack y with
    | notANumber | zero =>
        rw [bound] at less
        cases less
    | infinity sign | finite sign =>
        rw [bound] at less
        cases sign
        · cases less
        · rfl

theorem exists_unpack_of_zero_lt_of_lt {x y : Float} (positive : 0 < x) (less : x < y) :
    ∃ mantissa exponent positive, unpack x = .finite .positive mantissa exponent positive := by
  refine (zero_lt_iff.mp positive).resolve_left fun infinite => ?_
  rw [lt_iff, infinite] at less
  cases bound : unpack y <;> rw [bound] at less
  case infinity sign => cases sign <;> cases less
  all_goals cases less

theorem isFinite_eq_not (x : Float) : x.isFinite = (!x.isNaN && !x.isInf) := by
  rw [isFinite_eq, isNaN_eq, isInf_eq]
  cases unpack x <;> rfl

theorem isNaN_of_isFinite {x : Float} (finite : x.isFinite) : x.isNaN = false := by
  rw [isFinite_eq_not, Bool.and_eq_true] at finite
  exact (Bool.not_eq_true' _).mp finite.1

theorem isFinite_of_not {x : Float} (number : x.isNaN = false) (bounded : x.isInf = false) :
    x.isFinite := by
  rw [isFinite_eq_not, number, bounded]
  rfl

theorem isNaN_of_isInf {x : Float} (infinite : x.isInf) : x.isNaN = false := by
  rw [isInf_eq] at infinite
  rw [isNaN_eq]
  cases parts : unpack x <;> rw [parts] at infinite
  case notANumber => cases infinite
  all_goals rfl

theorem exists_unpack_of_isInf {x : Float} (infinite : x.isInf) :
    ∃ sign, unpack x = .infinity sign := by
  rw [isInf_eq] at infinite
  cases parts : unpack x <;> rw [parts] at infinite
  case infinity sign => exact ⟨sign, rfl⟩
  all_goals cases infinite

theorem exists_unpack_of_isFinite {x : Float} (finite : x.isFinite) :
    (∃ sign, unpack x = .zero sign) ∨
      ∃ sign mantissa exponent positive, unpack x = .finite sign mantissa exponent positive := by
  rw [isFinite_eq] at finite
  cases parts : unpack x <;> rw [parts] at finite
  case zero sign => exact .inl ⟨sign, rfl⟩
  case finite => exact .inr ⟨_, _, _, _, rfl⟩
  all_goals cases finite

theorem toNat_implicit_append (mantissa : BitVec 52) :
    (1#1 ++ mantissa).toNat = 2 ^ 52 + mantissa.toNat := by
  rw [BitVec.toNat_append, ← Nat.shiftLeft_add_eq_or_of_lt mantissa.isLt]
  rfl

theorem unpack_packComponents (sign : Sign) (exponent : BitVec 11) (mantissa : BitVec 52) :
    UnpackedFloat.unpack .binary64 (packComponents .binary64 sign exponent mantissa) =
      if exponent = -1#11 then
        if mantissa = 0#52 then .infinity sign else .notANumber
      else if exponent = 0#11 then
        if subnormal : 0 < mantissa.toNat then .finite sign mantissa.toNat (-1074) subnormal
        else .zero sign
      else .finite sign (2 ^ 52 + mantissa.toNat) (exponent.toNat - 1075) (by omega) := by
  have bias : (Format.binary64.exponentBias + Format.binary64.mantissaBitsWithoutImplicit : Int) =
      1075 := rfl
  unfold UnpackedFloat.unpack
  simp only [Float.Model.UnpackedFloat.unpackMantissa_packComponents,
    Float.Model.UnpackedFloat.unpackExponent_packComponents, unpackSign_packComponents,
    Sign.ofBitVec_toBitVec, bias, toNat_implicit_append]
  split
  · rfl
  split
  · rename_i least
    subst least
    by_cases zero : mantissa = 0#52
    · subst zero
      rfl
    · have positive : 0 < mantissa.toNat := by
        rwa [BitVec.toNat_pos, BitVec.pos_iff_ne_zero]
      rw [dif_neg zero, dif_pos positive]
      rfl
  · rfl

theorem exists_fields (x : Float) :
    ∃ (sign : Sign) (exponent : BitVec 11) (mantissa : BitVec 52),
      unpack x =
        UnpackedFloat.unpack .binary64 (packComponents .binary64 sign exponent mantissa) := by
  have fields := @packComponents_unpackSign_unpackExponent_unpackMantissa .binary64
    x.toModel.toBits.toBitVec
  exact ⟨_, _, _, congrArg (UnpackedFloat.unpack .binary64) fields.symm⟩

variable {sign : Sign} {mantissa : Nat} {exponent : Int} {positive : 0 < mantissa}

theorem pack_finite :
    UnpackedFloat.pack .binary64 (.finite sign mantissa exponent positive) =
      if 972 ≤ exponent then packComponents .binary64 sign (-1#11) 0#52
      else if mantissa.log2 = 52 then
        packComponents .binary64 sign (.ofNat 11 (exponent + 1075).toNat) (.ofNat 52 mantissa)
      else packComponents .binary64 sign 0#11 (.ofNat 52 mantissa) := by
  have biased : (exponent + Format.binary64.exponentBias +
      Format.binary64.mantissaBitsWithoutImplicit).toNat = (exponent + 1075).toNat :=
    congrArg Int.toNat (Int.add_assoc exponent 1023 52)
  have range : 2 ^ Format.binary64.exponentBits ≤ (exponent + 1075).toNat + 1 ↔ 972 ≤ exponent := by
    change 2048 ≤ (exponent + 1075).toNat + 1 ↔ 972 ≤ exponent
    omega
  have bits : mantissa.log2 + 1 = Format.binary64.mantissaBits ↔ mantissa.log2 = 52 := by
    change mantissa.log2 + 1 = 53 ↔ mantissa.log2 = 52
    omega
  simp only [UnpackedFloat.pack, biased, range, bits]
  rfl

/-- The field of an exponent in range; all bits are set only for infinities. -/
theorem toNat_biased (greatest : exponent ≤ 971) :
    (BitVec.ofNat 11 (exponent + 1075).toNat).toNat = (exponent + 1075).toNat := by
  rw [BitVec.toNat_ofNat, Nat.mod_eq_of_lt]
  omega

theorem biased_ne (greatest : exponent ≤ 971) :
    BitVec.ofNat 11 (exponent + 1075).toNat ≠ -1#11 := by
  intro same
  have value := congrArg BitVec.toNat same
  rw [toNat_biased greatest] at value
  change (exponent + 1075).toNat = 2047 at value
  omega

theorem unpack_pack_of_isNormal (normal : IsNormal mantissa exponent) :
    unpack (pack (.finite sign mantissa exponent positive)) =
      .finite sign mantissa exponent positive := by
  have least := normal.least
  have greatest := normal.greatest
  have not_zero : BitVec.ofNat 11 (exponent + 1075).toNat ≠ 0#11 := by
    intro same
    have value := congrArg BitVec.toNat same
    rw [toNat_biased greatest, BitVec.toNat_zero] at value
    omega
  have implicit : 2 ^ 52 + (BitVec.ofNat 52 mantissa).toNat = mantissa := by
    have full := normal.full
    have bits := normal.bits
    rw [BitVec.toNat_ofNat, Nat.mod_eq_sub_mod full, Nat.mod_eq_of_lt (by omega)]
    omega
  have unbiased : (((exponent + 1075).toNat : Int) - 1075) = exponent := by omega
  rw [unpack_pack, pack_finite, if_neg (by omega), if_pos normal.log2_eq, unpack_packComponents,
    if_neg (biased_ne greatest), if_neg not_zero]
  simp only [implicit, toNat_biased greatest, unbiased]

/-- A number does not become infinite as long as its exponent is in range. -/
theorem isFinite_pack (greatest : exponent ≤ 971) :
    (pack (.finite sign mantissa exponent positive)).isFinite := by
  rw [isFinite_eq, unpack_pack, pack_finite, if_neg (by omega)]
  split
  · rw [unpack_packComponents, if_neg (biased_ne greatest)]
    split
    · split <;> rfl
    · rfl
  · rw [unpack_packComponents, if_neg (by decide), if_pos rfl]
    split <;> rfl

/-- What is a number, or infinite, does not stop being one. -/
theorem isNaN_pack (parts : UnpackedFloat) : (pack parts).isNaN = parts.isNaN := by
  cases parts with
  | notANumber => rfl
  | infinity sign | zero sign => cases sign <;> rfl
  | finite sign mantissa exponent positive =>
      by_cases greatest : exponent ≤ 971
      · exact isNaN_of_isFinite (isFinite_pack greatest)
      · rw [isNaN_eq, unpack_pack, pack_finite, if_pos (by omega)]
        cases sign <;> rfl

/-- Parts that a float can have: at most 53 bits, and fewer only at the least exponent. -/
structure IsCanonical (mantissa : Nat) (exponent : Int) : Prop where
  bits : mantissa < 2 ^ 53
  least : -1074 ≤ exponent
  greatest : exponent ≤ 971
  full : exponent = -1074 ∨ 2 ^ 52 ≤ mantissa

variable {x : Float}

/-- A float is packed from its parts. -/
theorem pack_unpack (x : Float) : pack (unpack x) = x :=
  Float.toBits_inj.mp <| UInt64.toBitVec_inj.mp <|
    Float.Model.UnpackedFloat.pack_unpack_of_valid x.toModel.valid

theorem isCanonical_of_unpack (parts : unpack x = .finite sign mantissa exponent positive) :
    IsCanonical mantissa exponent := by
  obtain ⟨_, exponent_bits, mantissa_bits, fields⟩ := exists_fields x
  have mantissa_bound := mantissa_bits.isLt
  have exponent_bound := exponent_bits.isLt
  rw [fields, unpack_packComponents] at parts
  split at parts
  · split at parts <;> cases parts
  rename_i bounded
  have not_full : exponent_bits.toNat ≠ 2047 := fun full => bounded (BitVec.eq_of_toNat_eq full)
  split at parts
  · split at parts <;> cases parts
    exact ⟨by omega, by omega, by omega, .inl rfl⟩
  · rename_i not_least
    have not_zero : exponent_bits.toNat ≠ 0 := fun zero => not_least (BitVec.eq_of_toNat_eq zero)
    cases parts
    exact ⟨by omega, by omega, by omega, .inr (by omega)⟩

/-- Parts that a float can have are packed into a float that has them. -/
theorem unpack_pack_of_isCanonical (canonical : IsCanonical mantissa exponent) :
    unpack (pack (.finite sign mantissa exponent positive)) =
      .finite sign mantissa exponent positive := by
  rcases Nat.lt_or_ge mantissa (2 ^ 52) with few | full
  · obtain rfl : exponent = -1074 := canonical.full.resolve_right (Nat.not_le.mpr few)
    have size : (BitVec.ofNat 52 mantissa).toNat = mantissa := by
      rw [BitVec.toNat_ofNat, Nat.mod_eq_of_lt few]
    have bits : mantissa.log2 ≠ 52 := ((Nat.log2_lt positive.ne').mpr few).ne
    rw [unpack_pack, pack_finite, if_neg (by decide), if_neg bits, unpack_packComponents,
      if_neg (by decide), if_pos rfl]
    simp only [size, dif_pos positive]
  · exact unpack_pack_of_isNormal ⟨full, canonical.bits, canonical.least, canonical.greatest⟩

theorem unpack_abs (x : Float) : unpack x.abs = (unpack x).abs := by
  change unpack (pack (unpack x).abs) = _
  cases parts : unpack x with
  | notANumber => rfl
  | infinity sign | zero sign => cases sign <;> rfl
  | finite sign mantissa exponent positive =>
      exact unpack_pack_of_isCanonical (isCanonical_of_unpack parts)

theorem unpack_abs_of_finite (parts : unpack x = .finite sign mantissa exponent positive) :
    unpack x.abs = .finite .positive mantissa exponent positive := by
  rw [unpack_abs, parts]
  rfl

theorem abs_of_positive (parts : unpack x = .finite .positive mantissa exponent positive) :
    x.abs = x := by
  rw [← pack_unpack x.abs, unpack_abs_of_finite parts, ← parts, pack_unpack]

theorem neg_abs_of_negative (parts : unpack x = .finite .negative mantissa exponent positive) :
    -x.abs = x := by
  change pack (unpack x.abs).neg = x
  rw [unpack_abs_of_finite parts, ← pack_unpack x, parts]
  rfl

theorem isIntegral_iff (parts : unpack x = .finite sign mantissa exponent positive) :
    isIntegral x ↔ mantissa % (1 <<< (-exponent).toNat) = 0 := by
  rw [isIntegral, parts]
  exact decide_eq_true_iff

end Binary64
end Calculator
