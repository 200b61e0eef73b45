import Mathlib.Data.Rat.Floor
import Mathlib.Tactic.FieldSimp
import Mathlib.Tactic.Linarith
import Mathlib.Tactic.Positivity
import RadixCalc.Solve.Basic

/-!
# Rounding to a grid

A grid consists of the multiples of its step, and a number is rounded to the nearest of them.

* `abs_roundTo_sub_le`: rounding moves a number by half a step at most.
* `roundTo_eq_of_abs_sub_lt`: which point of the grid a number is rounded to.
* `roundTo_nonneg`, `step_le_roundTo`, `roundTo_eq_zero_iff`: what rounding makes of a number that
  is not negative.
* `gridStep_eq`: the step of the grid for a tolerance.
-/

namespace RadixCalc

variable {step x : ℚ}

/-- The absolute value of a rational is the one of ordered groups. -/
theorem rat_abs_eq (x : ℚ) : x.abs = |x| := by
  unfold Rat.abs
  split
  · rename_i h
    rw [abs_of_nonneg h]
  · rename_i h
    rw [abs_of_neg (not_le.1 h)]

/-- A number lies within a half of the nearest integer. -/
theorem abs_nearestInt_sub_le (x : ℚ) : |(nearestInt x : ℚ) - x| ≤ 1 / 2 := by
  have hfloor (y : ℚ) : (y.floor : ℚ) ≤ y ∧ y < y.floor + 1 :=
    ⟨Int.floor_le y, Int.lt_floor_add_one y⟩
  unfold nearestInt
  rw [abs_le]
  split
  · obtain ⟨h₁, h₂⟩ := hfloor (-x + 1 / 2)
    push_cast
    constructor <;> linarith
  · obtain ⟨h₁, h₂⟩ := hfloor (x + 1 / 2)
    constructor <;> linarith

theorem nearestInt_nonneg (hx : 0 ≤ x) : 0 ≤ nearestInt x := by
  unfold nearestInt
  rw [if_neg (not_lt.2 hx)]
  show 0 ≤ ⌊x + 1 / 2⌋
  exact Int.floor_nonneg.2 (by linarith)

/-- **Rounding moves a number by half a step at most.** -/
theorem abs_roundTo_sub_le (hstep : 0 < step) (x : ℚ) : |roundTo step x - x| ≤ step / 2 := by
  have hx : x = x / step * step := by field_simp
  have h := abs_nearestInt_sub_le (x / step)
  unfold roundTo
  calc |(nearestInt (x / step) : ℚ) * step - x|
      = |(nearestInt (x / step) : ℚ) - x / step| * step := by
        conv_lhs => rw [hx]
        rw [← sub_mul, abs_mul, abs_of_pos hstep, ← hx]
    _ ≤ 1 / 2 * step := mul_le_mul_of_nonneg_right h hstep.le
    _ = step / 2 := by ring

/-- **A number less than half a step from a point of the grid is rounded to it.** -/
theorem roundTo_eq_of_abs_sub_lt (hstep : 0 < step) {m : ℤ} (h : |x - m * step| < step / 2) :
    roundTo step x = m * step := by
  obtain ⟨hlow, hhigh⟩ := abs_le.1 (abs_roundTo_sub_le hstep x)
  obtain ⟨hleft, hright⟩ := abs_lt.1 h
  unfold roundTo at hlow hhigh ⊢
  set k := nearestInt (x / step)
  -- two points of the grid less than a step apart are one
  have hbelow : ((k - m : ℤ) : ℚ) < 1 := by
    refine lt_of_mul_lt_mul_right (a := step) ?_ hstep.le
    push_cast
    linarith
  have habove : (-1 : ℚ) < (k - m : ℤ) := by
    refine lt_of_mul_lt_mul_right (a := step) ?_ hstep.le
    push_cast
    linarith
  have hlt : k - m < 1 := by exact_mod_cast hbelow
  have hgt : -1 < k - m := by exact_mod_cast habove
  rw [show k = m by omega]

theorem roundTo_nonneg (hstep : 0 < step) (hx : 0 ≤ x) : 0 ≤ roundTo step x := by
  have h : (0 : ℚ) ≤ nearestInt (x / step) := by
    exact_mod_cast nearestInt_nonneg (div_nonneg hx hstep.le)
  exact mul_nonneg h hstep.le

/-- The least positive point of a grid is its step. -/
theorem step_le_roundTo (hstep : 0 < step) (hpos : 0 < roundTo step x) : step ≤ roundTo step x := by
  unfold roundTo at hpos ⊢
  have hint : (0 : ℚ) < nearestInt (x / step) := (mul_pos_iff_of_pos_right hstep).1 hpos
  have hone : (1 : ℚ) ≤ nearestInt (x / step) := by exact_mod_cast hint
  calc step = 1 * step := (one_mul step).symm
    _ ≤ nearestInt (x / step) * step := mul_le_mul_of_nonneg_right hone hstep.le

/-- What is rounded to zero is less than half a step above it, as a half goes up. -/
theorem roundTo_eq_zero_iff (hstep : 0 < step) (hx : 0 ≤ x) : roundTo step x = 0 ↔ x < step / 2 := by
  constructor
  · intro h
    have hint : nearestInt (x / step) = 0 := by
      exact_mod_cast (mul_eq_zero.1 h).resolve_right hstep.ne'
    unfold nearestInt at hint
    rw [if_neg (not_lt.2 (div_nonneg hx hstep.le))] at hint
    have hfloor : ⌊x / step + 1 / 2⌋ = 0 := hint
    have hlt : x / step + 1 / 2 < 1 := (Int.floor_eq_zero_iff.1 hfloor).2
    have hhalf : x / step < 1 / 2 := by linarith
    calc x < 1 / 2 * step := (div_lt_iff₀ hstep).1 hhalf
      _ = step / 2 := by ring
  · intro h
    have hnear : |x - (0 : ℤ) * step| < step / 2 := by
      rwa [Int.cast_zero, zero_mul, sub_zero, abs_of_nonneg hx]
    rw [roundTo_eq_of_abs_sub_lt hstep hnear, Int.cast_zero, zero_mul]

theorem gridStep_eq (ε : ℚ) : gridStep ε = ε / 16 := rfl

theorem gridStep_pos {ε : ℚ} (hε : 0 < ε) : 0 < gridStep ε := by
  rw [gridStep_eq]
  positivity

end RadixCalc
