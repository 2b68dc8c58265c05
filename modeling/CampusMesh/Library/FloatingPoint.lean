import Mathlib.Data.Int.Log
import Mathlib.Data.Rat.Floor
import Mathlib.Tactic.Linarith
import Mathlib.Tactic.NormNum
import Mathlib.Tactic.Positivity
import Mathlib.Tactic.Ring

/-!
# Floating-point numbers

The numbers of a binary format have so many digits that count, a least unit and a bound. An
operation on them is exact arithmetic on rational numbers with one rounding at its end: to the
nearest number with the digits of the format, of two equally near ones to the even one
(`FloatFormat.nearest`), and to an infinity where that is out of bounds. There is one zero here: no
sign tells what it was rounded from, so a quotient by zero is that by a positive one.

Rounding is monotone (`FloatFormat.nearest_mono`) and leaves numbers of the format as they are
(`FloatFormat.nearest_nearest`). So a bound that is itself a number of the format is kept by every
operation (`Floating.ofRat_mem`), and a sum of many small numbers is absorbed before it is out of
bounds (`Floating.add_absorbed`).
-/

set_option autoImplicit false
set_option relaxedAutoImplicit false

namespace CampusMesh.Library

/-! ### Rounding to an integer -/

/-- The integer nearest to a number, and of two equally near ones the even one. -/
def roundEven (value : ℚ) : ℤ :=
  if value - ⌊value⌋ < 1 / 2 ∨ value - ⌊value⌋ = 1 / 2 ∧ ⌊value⌋ % 2 = 0 then ⌊value⌋
  else ⌊value⌋ + 1

section RoundEven

variable {first second value : ℚ}

theorem floor_le_roundEven (value : ℚ) : ⌊value⌋ ≤ roundEven value := by
  unfold roundEven
  split_ifs
  · exact le_rfl
  · exact Int.le_add_one le_rfl

theorem roundEven_le (value : ℚ) : roundEven value ≤ ⌊value⌋ + 1 := by
  unfold roundEven
  split_ifs
  · exact Int.le_add_one le_rfl
  · exact le_rfl

@[simp]
theorem roundEven_intCast (integer : ℤ) : roundEven integer = integer := by
  unfold roundEven
  rw [Int.floor_intCast, if_pos (Or.inl (by norm_num))]

theorem roundEven_mono (hle : first ≤ second) : roundEven first ≤ roundEven second := by
  rcases (Int.floor_le_floor hle).eq_or_lt with hsame | hless
  · -- Between the same two integers the one that rounds down is the lesser one.
    unfold roundEven
    rw [← hsame]
    split_ifs with hfirst hsecond hsecond
    · exact le_rfl
    · exact Int.le_add_one le_rfl
    · refine absurd ?_ hfirst
      rcases hsecond with hdown | ⟨htie, heven⟩
      · exact Or.inl (by linarith)
      · rcases hle.eq_or_lt with rfl | hlt
        · exact Or.inr ⟨htie, heven⟩
        · exact Or.inl (by linarith)
    · exact le_rfl
  · have hnext : ⌊first⌋ + 1 ≤ ⌊second⌋ := hless
    exact (roundEven_le first).trans (hnext.trans (floor_le_roundEven second))

theorem roundEven_neg (value : ℚ) : roundEven (-value) = -roundEven value := by
  have hfloor := Int.floor_le value
  have hceil := Int.lt_floor_add_one value
  by_cases hinteger : (⌊value⌋ : ℚ) = value
  · rw [← hinteger, ← Int.cast_neg, roundEven_intCast, roundEven_intCast]
  have hopen : (⌊value⌋ : ℚ) < value := lt_of_le_of_ne hfloor hinteger
  have hnegated : ⌊-value⌋ = -⌊value⌋ - 1 := by
    rw [Int.floor_eq_iff]
    push_cast
    constructor <;> linarith
  unfold roundEven
  rw [hnegated]
  push_cast
  rcases lt_trichotomy (value - ⌊value⌋) (1 / 2) with hdown | htie | hup
  · rw [if_neg, if_pos (Or.inl hdown)]
    · ring
    · rintro (h | ⟨h, _⟩) <;> linarith
  · by_cases heven : ⌊value⌋ % 2 = 0
    · rw [if_neg, if_pos (Or.inr ⟨htie, heven⟩)]
      · ring
      · rintro (h | ⟨_, h⟩)
        · linarith
        · omega
    · rw [if_pos (Or.inr ⟨by linarith, by omega⟩), if_neg]
      · ring
      · rintro (h | ⟨_, h⟩)
        · linarith
        · exact heven h
  · rw [if_pos (Or.inl (by linarith)), if_neg]
    · ring
    · rintro (h | ⟨h, _⟩) <;> linarith

/-- Rounding to an integer keeps integral bounds. -/
theorem abs_roundEven_le {bound : ℤ} (hvalue : |value| ≤ bound) : |roundEven value| ≤ bound := by
  have hbounds := abs_le.mp hvalue
  have hlower := roundEven_mono hbounds.1
  have hupper := roundEven_mono hbounds.2
  rw [← Int.cast_neg, roundEven_intCast] at hlower
  rw [roundEven_intCast] at hupper
  exact abs_le.mpr ⟨hlower, hupper⟩

end RoundEven

/-! ### Formats -/

/-- A binary format: how many digits count, and the exponents of its least unit and its bound. -/
structure FloatFormat where
  precision : ℕ
  minExponent : ℤ
  maxExponent : ℤ
  one_le_precision : 1 ≤ precision

/-- Double precision. -/
def binary64 : FloatFormat := ⟨53, -1074, 1024, by decide⟩

namespace FloatFormat

variable (fmt : FloatFormat)

/-- The exponent of the last digit of a number that counts. -/
def unitExponent (value : ℚ) : ℤ :=
  max (Int.log 2 |value| + 1 - fmt.precision) fmt.minExponent

/-- The nearest number with the digits of the format. -/
def nearest (value : ℚ) : ℚ :=
  roundEven (value / 2 ^ fmt.unitExponent value) * 2 ^ fmt.unitExponent value

example : binary64.nearest (1 / 10) = 3602879701896397 / 2 ^ 55 := by decide +kernel

/-- A number of the format. -/
def Representable (value : ℚ) : Prop :=
  fmt.nearest value = value ∧ |value| < 2 ^ fmt.maxExponent

instance (value : ℚ) : Decidable (fmt.Representable value) := inferInstanceAs (Decidable (_ ∧ _))

variable {first second value : ℚ}

theorem unit_pos (exponent : ℤ) : (0 : ℚ) < 2 ^ exponent := zpow_pos two_pos exponent

theorem unit_le_unit {small large : ℤ} (hle : small ≤ large) : (2 : ℚ) ^ small ≤ 2 ^ large :=
  zpow_le_zpow_right₀ one_le_two hle

theorem abs_lt_zpow_log (value : ℚ) : |value| < 2 ^ (Int.log 2 |value| + 1) := by
  exact_mod_cast Int.lt_zpow_succ_log_self Nat.one_lt_two |value|

theorem zpow_log_le_abs (hne : value ≠ 0) : (2 : ℚ) ^ Int.log 2 |value| ≤ |value| := by
  exact_mod_cast Int.zpow_log_le_self Nat.one_lt_two (abs_pos.mpr hne)

@[simp] theorem nearest_zero : fmt.nearest 0 = 0 := by
  have hzero := roundEven_intCast 0
  unfold nearest
  rw [zero_div]
  simp_all

@[simp] theorem nearest_neg (value : ℚ) : fmt.nearest (-value) = -fmt.nearest value := by
  unfold nearest unitExponent
  rw [abs_neg, neg_div, roundEven_neg]
  push_cast
  ring

theorem nearest_nonneg (hvalue : 0 ≤ value) : 0 ≤ fmt.nearest value := by
  refine mul_nonneg ?_ (unit_pos _).le
  have hrounded : roundEven (0 : ℤ) ≤ roundEven (value / 2 ^ fmt.unitExponent value) :=
    roundEven_mono (by rw [Int.cast_zero]; exact div_nonneg hvalue (unit_pos _).le)
  rw [roundEven_intCast] at hrounded
  exact_mod_cast hrounded

/-- A multiple of a unit that is fine enough for the number is left as it is. -/
theorem nearest_of_unit (significand exponent : ℤ)
    (hunit : fmt.unitExponent (significand * 2 ^ exponent) ≤ exponent) :
    fmt.nearest (significand * 2 ^ exponent) = significand * 2 ^ exponent := by
  obtain ⟨shift, hshift⟩ := Int.le.dest hunit
  unfold nearest
  generalize fmt.unitExponent (significand * 2 ^ exponent) = unit at hshift
  have hsplit : (significand * 2 ^ exponent : ℚ) =
      ((significand * 2 ^ shift : ℤ) : ℚ) * 2 ^ unit := by
    rw [← hshift, zpow_add₀ two_ne_zero]
    push_cast
    rw [zpow_natCast]
    ring
  rw [hsplit, mul_div_cancel_right₀ _ (unit_pos unit).ne', roundEven_intCast]

/-- A number has no more digits than the format before the last one that counts. -/
theorem abs_lt_of_unitExponent (value : ℚ) :
    |value| < 2 ^ (fmt.unitExponent value + fmt.precision) := by
  refine (abs_lt_zpow_log value).trans_le (unit_le_unit ?_)
  have hle : Int.log 2 |value| + 1 - fmt.precision ≤ fmt.unitExponent value := le_max_left _ _
  omega

theorem unitExponent_mono (hfirst : 0 < first) (hle : first ≤ second) :
    fmt.unitExponent first ≤ fmt.unitExponent second := by
  have hlog : Int.log 2 |first| ≤ Int.log 2 |second| := by
    rw [abs_of_pos hfirst, abs_of_pos (hfirst.trans_le hle)]
    exact Int.log_mono_right hfirst hle
  exact max_le_max (by omega) le_rfl

/-- Rounding does not go beyond a power of two that is a multiple of the unit. -/
theorem nearest_le_pow (digits : ℕ)
    (hle : first ≤ 2 ^ (fmt.unitExponent first + digits)) :
    fmt.nearest first ≤ 2 ^ (fmt.unitExponent first + digits) := by
  unfold nearest
  generalize fmt.unitExponent first = unit at hle ⊢
  have hpower : (2 : ℚ) ^ (unit + digits) = ((2 ^ digits : ℤ) : ℚ) * 2 ^ unit := by
    rw [zpow_add₀ two_ne_zero, zpow_natCast]
    push_cast
    ring
  have hrounded : roundEven (first / 2 ^ unit) ≤ 2 ^ digits := by
    rw [← roundEven_intCast (2 ^ digits)]
    refine roundEven_mono ?_
    rwa [div_le_iff₀ (unit_pos unit), ← hpower]
  rw [hpower]
  exact mul_le_mul_of_nonneg_right (by exact_mod_cast hrounded) (unit_pos unit).le

theorem pow_le_nearest (digits : ℕ) (hle : 2 ^ (fmt.unitExponent second + digits) ≤ second) :
    2 ^ (fmt.unitExponent second + digits) ≤ fmt.nearest second := by
  unfold nearest
  generalize fmt.unitExponent second = unit at hle ⊢
  have hpower : (2 : ℚ) ^ (unit + digits) = ((2 ^ digits : ℤ) : ℚ) * 2 ^ unit := by
    rw [zpow_add₀ two_ne_zero, zpow_natCast]
    push_cast
    ring
  have hrounded : 2 ^ digits ≤ roundEven (second / 2 ^ unit) := by
    rw [← roundEven_intCast (2 ^ digits)]
    refine roundEven_mono ?_
    rwa [le_div_iff₀ (unit_pos unit), ← hpower]
  rw [hpower]
  exact mul_le_mul_of_nonneg_right (by exact_mod_cast hrounded) (unit_pos unit).le

/-- **Rounding is monotone** on positive numbers: with the same unit this is rounding to integers,
and otherwise a power of two lies between the two results. -/
theorem nearest_mono_of_pos (hfirst : 0 < first) (hle : first ≤ second) :
    fmt.nearest first ≤ fmt.nearest second := by
  have hsecond : 0 < second := hfirst.trans_le hle
  rcases (fmt.unitExponent_mono hfirst hle).eq_or_lt with hsame | hless
  · unfold nearest
    rw [← hsame]
    have hrounded : roundEven (first / 2 ^ fmt.unitExponent first) ≤
        roundEven (second / 2 ^ fmt.unitExponent first) :=
      roundEven_mono (div_le_div_of_nonneg_right hle (unit_pos _).le)
    exact mul_le_mul_of_nonneg_right (by exact_mod_cast hrounded) (unit_pos _).le
  · have hleading : fmt.unitExponent second = Int.log 2 |second| + 1 - fmt.precision := by
      refine (max_choice _ _).resolve_right fun hleast ↦ hless.not_ge ?_
      rw [unitExponent, hleast]
      exact le_max_right _ _
    have hpower : fmt.unitExponent second + (fmt.precision - 1 : ℕ) = Int.log 2 |second| := by
      have hprecision := fmt.one_le_precision
      omega
    calc fmt.nearest first ≤ 2 ^ (fmt.unitExponent first + fmt.precision) := by
          exact fmt.nearest_le_pow _
            ((le_abs_self first).trans (fmt.abs_lt_of_unitExponent first).le)
      _ ≤ 2 ^ (fmt.unitExponent second + (fmt.precision - 1 : ℕ)) := by
          refine unit_le_unit ?_
          have hprecision := fmt.one_le_precision
          omega
      _ ≤ fmt.nearest second := by
          refine fmt.pow_le_nearest _ ?_
          rw [hpower]
          exact (zpow_log_le_abs hsecond.ne').trans (abs_of_pos hsecond).le

/-- **Rounding is monotone.** -/
theorem nearest_mono (hle : first ≤ second) : fmt.nearest first ≤ fmt.nearest second := by
  rcases lt_or_ge 0 first with hfirst | hfirst
  · exact fmt.nearest_mono_of_pos hfirst hle
  · rcases lt_or_ge second 0 with hsecond | hsecond
    · have hnegated := fmt.nearest_mono_of_pos (neg_pos.mpr hsecond) (neg_le_neg hle)
      rw [nearest_neg, nearest_neg] at hnegated
      exact neg_le_neg_iff.mp hnegated
    · have hnegated := fmt.nearest_nonneg (neg_nonneg.mpr hfirst)
      rw [nearest_neg] at hnegated
      exact (neg_nonneg.mp hnegated).trans (fmt.nearest_nonneg hsecond)

/-- A number with as many digits as the format allows is left as it is. -/
theorem nearest_of_digits (significand exponent : ℤ) (hdigits : |significand| < 2 ^ fmt.precision)
    (hleast : fmt.minExponent ≤ exponent) :
    fmt.nearest (significand * 2 ^ exponent) = significand * 2 ^ exponent := by
  by_cases hzero : significand = 0
  · rw [hzero, Int.cast_zero, zero_mul, nearest_zero]
  refine fmt.nearest_of_unit significand exponent (max_le ?_ hleast)
  have hpos : 0 < |(significand * 2 ^ exponent : ℚ)| :=
    abs_pos.mpr (mul_ne_zero (by exact_mod_cast hzero) (unit_pos exponent).ne')
  have hsize : |(significand * 2 ^ exponent : ℚ)| < (2 : ℕ) ^ (exponent + fmt.precision) := by
    rw [abs_mul, abs_of_pos (unit_pos exponent), Nat.cast_ofNat, zpow_add₀ two_ne_zero,
      mul_comm, zpow_natCast]
    refine mul_lt_mul_of_pos_left ?_ (unit_pos exponent)
    exact_mod_cast hdigits
  have hlog := (Int.lt_zpow_iff_log_lt one_lt_two hpos).mp hsize
  omega

theorem exists_half {digits : ℕ} (hdigits : 1 ≤ digits) {significand : ℤ}
    (hpower : |significand| = 2 ^ digits) :
    ∃ half : ℤ, significand = half * 2 ∧ |half| < 2 ^ digits := by
  obtain ⟨fewer, rfl⟩ := Nat.exists_eq_add_of_le' hdigits
  have hless : (2 : ℤ) ^ fewer < 2 ^ (fewer + 1) := pow_lt_pow_right₀ one_lt_two (by omega)
  have hnonneg : (0 : ℤ) ≤ 2 ^ fewer := by positivity
  rw [pow_succ] at hpower
  rcases eq_or_eq_neg_of_abs_eq hpower with hsame | hsame
  · exact ⟨2 ^ fewer, hsame, by rwa [abs_of_nonneg hnonneg]⟩
  · exact ⟨-2 ^ fewer, by rw [hsame]; ring, by rwa [abs_neg, abs_of_nonneg hnonneg]⟩

/-- **Rounding leaves what it yields as it is.** When all digits are used up by a power of two, one
digit less does as well. -/
theorem nearest_nearest (value : ℚ) : fmt.nearest (fmt.nearest value) = fmt.nearest value := by
  have hleast : fmt.minExponent ≤ fmt.unitExponent value := le_max_right _ _
  have hsize : |roundEven (value / 2 ^ fmt.unitExponent value)| ≤ 2 ^ fmt.precision := by
    refine abs_roundEven_le ?_
    have hvalue := (fmt.abs_lt_of_unitExponent value).le
    rw [zpow_add₀ two_ne_zero, zpow_natCast, mul_comm] at hvalue
    rw [abs_div, abs_of_pos (unit_pos _), div_le_iff₀ (unit_pos _)]
    exact_mod_cast hvalue
  have hnearest : fmt.nearest value = roundEven (value / 2 ^ fmt.unitExponent value) *
    2 ^ fmt.unitExponent value := rfl
  rw [hnearest]
  generalize roundEven (value / 2 ^ fmt.unitExponent value) = significand at hsize
  generalize fmt.unitExponent value = unit at hleast
  rcases hsize.lt_or_eq with hless | hpower
  · exact fmt.nearest_of_digits significand unit hless hleast
  · obtain ⟨half, hhalf⟩ := exists_half fmt.one_le_precision hpower
    have hsplit : (significand * 2 ^ unit : ℚ) = half * 2 ^ (unit + 1) := by
      rw [hhalf.1, zpow_add_one₀ two_ne_zero]
      push_cast
      ring
    rw [hsplit]
    exact fmt.nearest_of_digits half (unit + 1) hhalf.2 (by omega)

theorem representable_zero : fmt.Representable 0 :=
  ⟨fmt.nearest_zero, by rw [abs_zero]; exact unit_pos _⟩

variable {fmt} in
/-- A bound that is a number of the format is kept. -/
theorem nearest_le (hbound : fmt.Representable second) (hle : first ≤ second) :
    fmt.nearest first ≤ second :=
  (fmt.nearest_mono hle).trans_eq hbound.1

end FloatFormat

/-! ### Numbers -/

/-- A number of a format, an infinity, or what is not a number. -/
inductive Floating (fmt : FloatFormat)
  | finite (value : { value : ℚ // fmt.Representable value })
  | infinity (negative : Bool)
  | nan
  deriving DecidableEq

/-- Double-precision numbers. -/
abbrev Double := Floating binary64

namespace Floating

variable {fmt : FloatFormat}

/-- The number to which a rational number is rounded. -/
def ofRat (value : ℚ) : Floating fmt :=
  if hbound : |fmt.nearest value| < 2 ^ fmt.maxExponent then
    finite ⟨fmt.nearest value, fmt.nearest_nearest value, hbound⟩
  else infinity (value < 0)

def zero : Floating fmt := finite ⟨0, fmt.representable_zero⟩

/-- Neither zero nor what is not a number. -/
def isTruthy : Floating fmt → Bool
  | finite value => value.1 ≠ 0
  | infinity _ => true
  | nan => false

def add : Floating fmt → Floating fmt → Floating fmt
  | finite first, finite second => ofRat (first.1 + second.1)
  | infinity negative, infinity other => if negative = other then infinity negative else nan
  | infinity negative, finite _ | finite _, infinity negative => infinity negative
  | nan, _ | _, nan => nan

def mul : Floating fmt → Floating fmt → Floating fmt
  | finite first, finite second => ofRat (first.1 * second.1)
  | infinity negative, infinity other => infinity (negative != other)
  | infinity negative, finite value | finite value, infinity negative =>
    if value.1 = 0 then nan else infinity (negative != decide (value.1 < 0))
  | nan, _ | _, nan => nan

def div : Floating fmt → Floating fmt → Floating fmt
  | finite first, finite second =>
    if second.1 ≠ 0 then ofRat (first.1 / second.1)
    else if first.1 = 0 then nan else infinity (first.1 < 0)
  | infinity negative, finite value => infinity (negative != decide (value.1 < 0))
  | finite _, infinity _ => zero
  | infinity _, infinity _ | nan, _ | _, nan => nan

/-- `first < second`. -/
def lt : Floating fmt → Floating fmt → Bool
  | finite first, finite second => first.1 < second.1
  | infinity negative, infinity other => negative && !other
  | infinity negative, finite _ => negative
  | finite _, infinity negative => !negative
  | nan, _ | _, nan => false

/-- `first ≤ second`. -/
def le : Floating fmt → Floating fmt → Bool
  | finite first, finite second => first.1 ≤ second.1
  | infinity negative, infinity other => negative || !other
  | infinity negative, finite _ => negative
  | finite _, infinity negative => !negative
  | nan, _ | _, nan => false

/-- The nearest integer, and of two equally near ones the greater one. -/
def round : Floating fmt → Floating fmt
  | finite value => ofRat ⌊value.1 + 1 / 2⌋
  | value => value

/-- The greater of two numbers. -/
def max : Floating fmt → Floating fmt → Floating fmt
  | nan, _ | _, nan => nan
  | first, second => if lt first second then second else first

section Bounds

variable {first second : Floating fmt} {value bound : ℚ}

theorem ofRat_of_representable (hvalue : fmt.Representable value) :
    (ofRat value : Floating fmt) = finite ⟨value, hvalue⟩ := by
  unfold ofRat
  rw [dif_pos (by rw [hvalue.1]; exact hvalue.2)]
  congr
  exact hvalue.1

theorem ofRat_ne_nan (value : ℚ) : ofRat value ≠ (nan : Floating fmt) := by
  unfold ofRat
  split_ifs
  · nofun
  · nofun

theorem round_eq_nan_iff : first.round = nan ↔ first = nan := by
  cases first with
  | finite value => exact iff_of_false (ofRat_ne_nan _) (by nofun)
  | infinity negative => exact Iff.rfl
  | nan => exact Iff.rfl

/-- A quotient by a number other than zero is a number if the dividend is one. -/
theorem div_eq_nan_iff {divisor : { value : ℚ // fmt.Representable value }}
    (hdivisor : divisor.1 ≠ 0) : first.div (finite divisor) = nan ↔ first = nan := by
  cases first with
  | finite value =>
    rw [div, if_pos hdivisor]
    exact iff_of_false (ofRat_ne_nan _) (by nofun)
  | infinity negative => exact iff_of_false (by nofun) (by nofun)
  | nan => exact Iff.rfl

/-- What is between bounds of the format is rounded to a number between them. -/
theorem ofRat_mem {least : ℚ} (hleast : fmt.Representable least) (hbound : fmt.Representable bound)
    (hlower : least ≤ value) (hupper : value ≤ bound) :
    ∃ rounded, (ofRat value : Floating fmt) = finite rounded ∧ least ≤ rounded.1 ∧
      rounded.1 ≤ bound := by
  have hge : least ≤ fmt.nearest value := hleast.1.symm.trans_le (fmt.nearest_mono hlower)
  have hle : fmt.nearest value ≤ bound := FloatFormat.nearest_le hbound hupper
  have hfinite : |fmt.nearest value| < 2 ^ fmt.maxExponent :=
    abs_lt.mpr ⟨(abs_lt.mp hleast.2).1.trans_le hge, hle.trans_lt (abs_lt.mp hbound.2).2⟩
  exact ⟨_, dif_pos hfinite, hge, hle⟩

/-- At least zero. -/
def IsNonneg (value : Floating fmt) : Prop := le zero value = true

instance (value : Floating fmt) : Decidable value.IsNonneg := inferInstanceAs (Decidable (_ = true))

theorem isNonneg_finite {value : { value : ℚ // fmt.Representable value }} :
    (finite value).IsNonneg ↔ 0 ≤ value.1 := by
  simp [IsNonneg, zero, le]

theorem isNonneg_infinity {negative : Bool} :
    (infinity negative : Floating fmt).IsNonneg ↔ negative = false := by
  simp [IsNonneg, zero, le]

theorem not_isNonneg_nan : ¬ (nan : Floating fmt).IsNonneg := by
  simp [IsNonneg, zero, le]

/-- What is kept from being less than zero is not negative, if it is a number. -/
theorem isNonneg_max_zero_iff : (max zero first).IsNonneg ↔ first ≠ nan := by
  cases first with
  | finite value =>
    refine iff_of_true ?_ (by nofun)
    change (if lt zero (finite value) = true then finite value else zero).IsNonneg
    split_ifs with hpositive
    · have hless : 0 < value.1 := of_decide_eq_true hpositive
      exact isNonneg_finite.mpr hless.le
    · exact isNonneg_finite.mpr le_rfl
  | infinity negative =>
    refine iff_of_true ?_ (by nofun)
    cases negative with
    | false => exact isNonneg_infinity.mpr rfl
    | true => exact isNonneg_finite.mpr le_rfl
  | nan => exact iff_of_false not_isNonneg_nan (not_not.mpr rfl)

theorem isNonneg_ofRat (hvalue : 0 ≤ value) : (ofRat value : Floating fmt).IsNonneg := by
  unfold ofRat
  split_ifs
  · exact isNonneg_finite.mpr (fmt.nearest_nonneg hvalue)
  · exact isNonneg_infinity.mpr (decide_eq_false hvalue.not_gt)

/-- A sum of numbers that are not negative is not negative. -/
theorem IsNonneg.add (hfirst : first.IsNonneg) (hsecond : second.IsNonneg) :
    (first.add second).IsNonneg := by
  cases first with
  | finite first =>
    cases second with
    | finite second =>
      exact isNonneg_ofRat (add_nonneg (isNonneg_finite.mp hfirst) (isNonneg_finite.mp hsecond))
    | infinity => exact hsecond
    | nan => exact hsecond
  | infinity negative =>
    cases second with
    | finite second => exact hfirst
    | infinity other =>
      obtain rfl : negative = other :=
        (isNonneg_infinity.mp hfirst).trans (isNonneg_infinity.mp hsecond).symm
      rwa [Floating.add, if_pos rfl]
    | nan => exact hsecond
  | nan => exact absurd hfirst not_isNonneg_nan

/-- A sum is at least its first part, if the other one is not negative. -/
theorem le_add_of_isNonneg {first : { value : ℚ // fmt.Representable value }}
    (hsecond : second.IsNonneg) : (finite first).le ((finite first).add second) = true := by
  cases second with
  | finite second =>
    have hle : first.1 ≤ first.1 + second.1 := le_add_of_nonneg_right (isNonneg_finite.mp hsecond)
    change (finite first).le (ofRat (first.1 + second.1)) = true
    unfold ofRat
    split_ifs with hbound
    · exact decide_eq_true (first.2.1.symm.trans_le (fmt.nearest_mono hle))
    · -- Out of bounds is above them, since the first part is within.
      have hupper := fmt.nearest_mono hle
      rw [first.2.1] at hupper
      have hnonneg : ¬ first.1 + second.1 < 0 := by
        intro hnegative
        have hsum : fmt.nearest (first.1 + second.1) ≤ 0 :=
          FloatFormat.nearest_le fmt.representable_zero hnegative.le
        exact hbound (abs_lt.mpr ⟨(abs_lt.mp first.2.2).1.trans_le hupper,
          hsum.trans_lt (FloatFormat.unit_pos _)⟩)
      simp [le, hnonneg]
  | infinity negative => simp [Floating.add, le, isNonneg_infinity.mp hsecond]
  | nan => exact absurd hsecond not_isNonneg_nan

/-- The quotient of a part by the whole is between zero and one. -/
theorem div_mem (hone : fmt.Representable 1) {first : { value : ℚ // fmt.Representable value }}
    (hfirst : 0 ≤ first.1) (hle : (finite first).le second = true)
    (hpositive : lt zero second = true) :
    ∃ share, (finite first).div second = finite share ∧ 0 ≤ share.1 ∧ share.1 ≤ 1 := by
  cases second with
  | finite second =>
    have hsecond : 0 < second.1 := of_decide_eq_true hpositive
    rw [div, if_pos hsecond.ne']
    exact ofRat_mem fmt.representable_zero hone (div_nonneg hfirst hsecond.le)
      ((div_le_one hsecond).mpr (of_decide_eq_true hle))
  | infinity => exact ⟨_, rfl, le_rfl, zero_le_one⟩
  | nan => exact absurd hle Bool.false_ne_true

/-- Rounding to an integer keeps integral bounds. -/
theorem round_mem {most : ℤ} (hmost : fmt.Representable most)
    {value : { value : ℚ // fmt.Representable value }} (hlower : 0 ≤ value.1)
    (hupper : value.1 ≤ most) :
    ∃ rounded, (finite value).round = finite rounded ∧ 0 ≤ rounded.1 ∧ rounded.1 ≤ most := by
  refine ofRat_mem fmt.representable_zero hmost ?_ ?_
  · exact_mod_cast Int.floor_nonneg.mpr (by linarith)
  · have hfloor : ⌊value.1 + 1 / 2⌋ < most + 1 := Int.floor_lt.mpr (by push_cast; linarith)
    exact_mod_cast Int.lt_add_one_iff.mp hfloor

/-- A number too small to make a difference to a bound does not take a sum beyond it. -/
theorem add_absorbed {small : ℚ} (hbound : fmt.Representable bound)
    (habsorbs : fmt.nearest (bound + small) = bound)
    {first second : { value : ℚ // fmt.Representable value }} (hfirst : |first.1| ≤ bound)
    (hsecond : |second.1| ≤ small) :
    ∃ sum, (finite first).add (finite second) = finite sum ∧ |sum.1| ≤ bound := by
  have hupper : first.1 + second.1 ≤ bound + small :=
    add_le_add (abs_le.mp hfirst).2 (abs_le.mp hsecond).2
  have hlower : -(bound + small) ≤ first.1 + second.1 := by
    rw [neg_add]
    exact add_le_add (abs_le.mp hfirst).1 (abs_le.mp hsecond).1
  have hsum : |fmt.nearest (first.1 + second.1)| ≤ bound := by
    refine abs_le.mpr ⟨?_, (fmt.nearest_mono hupper).trans_eq habsorbs⟩
    rw [← habsorbs, ← fmt.nearest_neg]
    exact fmt.nearest_mono hlower
  exact ⟨_, dif_pos (hsum.trans_lt ((le_abs_self bound).trans_lt hbound.2)), hsum⟩

end Bounds

end Floating

end CampusMesh.Library
