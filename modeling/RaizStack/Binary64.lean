import Mathlib.Algebra.Order.Field.Power
import Mathlib.Data.Int.Log
import Mathlib.Data.Rat.Floor
import Mathlib.Tactic.Linarith
import Mathlib.Tactic.NormNum
import Mathlib.Tactic.Positivity

/-!
# Doubles

A finite double as the rational number it is; the sign of a zero is not
kept. `round` is the one rounding of the format: to the nearest multiple
of the unit in the last place, to the even one of two, and to infinity
past the largest exponent. For a number that is neither tiny nor huge it
is off by at most its 2^-53th part (`round_near`), which is all that a
bound on a chain of operations needs.
-/

namespace Binary64

inductive Value where
  | finite (x : ℚ)
  | infinity (negative : Bool)
  | nan
  deriving DecidableEq, Repr

/-! ## Rounding -/

/-- The nearest integer, or the even one of two. -/
def nearestEven (x : ℚ) : ℤ :=
  let n := ⌊x⌋
  if x - n < 1 / 2 then n
  else if 1 / 2 < x - n then n + 1
  else if n % 2 = 0 then n else n + 1

/-- The exponent of the unit in the last place; the smallest are those of
the subnormal numbers. -/
def ulpExponent (x : ℚ) : ℤ :=
  max (Int.log 2 |x| - 52) (-1074)

def round (x : ℚ) : Value :=
  let u : ℚ := 2 ^ ulpExponent x
  let y := nearestEven (x / u) * u
  if 2 ^ 1024 ≤ |y| then .infinity (x < 0) else .finite y

def mul : Value → Value → Value
  | .finite x, .finite y => round (x * y)
  | .finite x, .infinity negative => if x = 0 then .nan else .infinity (negative != decide (x < 0))
  | .infinity negative, .finite y => if y = 0 then .nan else .infinity (negative != decide (y < 0))
  | .infinity negative, .infinity negative' => .infinity (negative != negative')
  | .nan, _ => .nan
  | _, .nan => .nan

theorem abs_nearestEven_sub_le (x : ℚ) : |(nearestEven x : ℚ) - x| ≤ 1 / 2 := by
  have hlo := Int.floor_le x
  have hhi := Int.lt_floor_add_one x
  unfold nearestEven
  dsimp only
  split
  · rw [abs_le]
    constructor <;> linarith
  · split
    · push_cast
      rw [abs_le]
      constructor <;> linarith
    · split
      · rw [abs_le]
        constructor <;> linarith
      · push_cast
        rw [abs_le]
        constructor <;> linarith

/-- A normal number has 53 significant bits. -/
theorem ulp_le {x : ℚ} (h : (2 : ℚ) ^ (-1022 : ℤ) ≤ x) : (2 : ℚ) ^ ulpExponent x ≤ x / 2 ^ 52 := by
  have hpos : 0 < x := lt_of_lt_of_le (by positivity) h
  have hlog : (-1022 : ℤ) ≤ Int.log 2 x := by
    have hmono := Int.log_mono_right (b := 2) (by positivity : (0 : ℚ) < 2 ^ (-1022 : ℤ)) h
    rwa [show ((2 : ℚ) ^ (-1022 : ℤ)) = ((2 : ℕ) : ℚ) ^ (-1022 : ℤ) by norm_num,
      Int.log_zpow (by norm_num)] at hmono
  have hself : (2 : ℚ) ^ Int.log 2 x ≤ x := by
    have h := Int.zpow_log_le_self (b := 2) (by norm_num) hpos
    exact_mod_cast h
  rw [ulpExponent, abs_of_pos hpos, max_eq_left (by omega), zpow_sub₀ (by norm_num)]
  have hbits : (2 : ℚ) ^ (52 : ℤ) = 2 ^ 52 := by norm_cast
  rw [hbits]
  gcongr

/-- **The error of one rounding.** -/
theorem round_near {x : ℚ} (hlo : (2 : ℚ) ^ (-1022 : ℤ) ≤ x) (hhi : x < 2 ^ 1023) :
    ∃ y, round x = .finite y ∧ |y - x| ≤ x / 2 ^ 53 := by
  have hpos : 0 < x := lt_of_lt_of_le (by positivity) hlo
  have hu : (0 : ℚ) < 2 ^ ulpExponent x := by positivity
  have hulp := ulp_le hlo
  have hnear := abs_nearestEven_sub_le (x / 2 ^ ulpExponent x)
  have hround : |nearestEven (x / 2 ^ ulpExponent x) * 2 ^ ulpExponent x - x| ≤ x / 2 ^ 53 := by
    have hfactor : nearestEven (x / 2 ^ ulpExponent x) * 2 ^ ulpExponent x - x
        = (nearestEven (x / 2 ^ ulpExponent x) - x / 2 ^ ulpExponent x) * 2 ^ ulpExponent x := by
      field_simp
    calc |nearestEven (x / 2 ^ ulpExponent x) * 2 ^ ulpExponent x - x|
        = |nearestEven (x / 2 ^ ulpExponent x) - x / 2 ^ ulpExponent x| * 2 ^ ulpExponent x := by
          rw [hfactor, abs_mul, abs_of_pos hu]
      _ ≤ 1 / 2 * (x / 2 ^ 52) := by gcongr
      _ = x / 2 ^ 53 := by ring
  refine ⟨_, if_neg ?_, hround⟩
  have hbound := abs_le.mp hround
  have hhuge : (2 : ℚ) ^ 1024 = 2 * 2 ^ 1023 := pow_succ' 2 1023
  have hpart : x / 2 ^ 53 ≤ x := div_le_self hpos.le (by norm_num)
  rw [not_le, hhuge, abs_lt]
  generalize (2 : ℚ) ^ 1023 = huge at hhi ⊢
  constructor <;> linarith

end Binary64
