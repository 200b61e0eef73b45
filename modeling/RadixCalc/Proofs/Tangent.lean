import Mathlib.Algebra.Order.Field.Basic
import Mathlib.Algebra.Order.Ring.Pow
import Mathlib.Tactic.FieldSimp
import Mathlib.Tactic.Linarith
import Mathlib.Tactic.Positivity
import RadixCalc.NthRoot
import RadixCalc.Proofs.Rounding

/-!
# The tangent of a power

One round towards the root of order `n` of `x` goes from `y` to where the tangent of `y ^ n` meets
`x`, and then to the grid. The tangent is studied over any ordered field.

* `tangent`: where the tangent meets `x`.
* `le_tangent_pow`: the tangent never meets `x` below the root.
* `abs_improve_sub_tangent_le`: a round ends within half a grid step of it.
-/

namespace RadixCalc.NthRoot

section Field

variable {K : Type*} [Field K]

/-- Where the tangent at `y` of the power of order `n` meets `x`. -/
def tangent (x : K) (n : ℕ) (y : K) : K := y - (y ^ n - x) / (n * y ^ (n - 1))

variable [LinearOrder K] [IsStrictOrderedRing K] {x y : K} {n : ℕ}

/-- The tangent moves `y` by a part of itself, one `n`-th of how far `x / y ^ n` is from one. -/
theorem tangent_eq_mul (hn : n ≠ 0) (hy : y ≠ 0) :
    tangent x n y = y * (1 + (x / y ^ n - 1) / n) := by
  have hn' : (n : K) ≠ 0 := Nat.cast_ne_zero.2 hn
  have hpow : y ^ n = y ^ (n - 1) * y := (pow_sub_one_mul hn y).symm
  have hpow' : y ^ (n - 1) ≠ 0 := pow_ne_zero _ hy
  unfold tangent
  rw [hpow]
  field_simp
  ring

/-- `n` times the way to the tangent is the way to `x / y ^ (n - 1)`. -/
theorem mul_sub_tangent (hn : n ≠ 0) (hy : y ≠ 0) :
    n * (y - tangent x n y) = y - y * (x / y ^ n) := by
  have hn' : (n : K) ≠ 0 := Nat.cast_ne_zero.2 hn
  rw [tangent_eq_mul hn hy]
  field_simp
  ring

/-- **The tangent never meets `x` below the root**: the power is convex. -/
theorem le_tangent_pow (hn : n ≠ 0) (hx : 0 ≤ x) (hy : 0 < y) : x ≤ tangent x n y ^ n := by
  have hn' : (n : K) ≠ 0 := Nat.cast_ne_zero.2 hn
  have hn1 : (1 : K) ≤ n := by exact_mod_cast Nat.one_le_iff_ne_zero.2 hn
  have hquotient : 0 ≤ x / y ^ n := by positivity
  have hpart : -2 ≤ (x / y ^ n - 1) / n := by
    rw [le_div_iff₀ (by linarith)]
    linarith
  rw [tangent_eq_mul hn hy.ne', mul_pow]
  calc x = y ^ n * (x / y ^ n) := by field_simp
    _ = y ^ n * (1 + n * ((x / y ^ n - 1) / n)) := by
      congr 1
      field_simp
      ring
    _ ≤ y ^ n * (1 + (x / y ^ n - 1) / n) ^ n :=
      mul_le_mul_of_nonneg_left (one_add_mul_le_pow hpart n) (by positivity)

/-- The tangent takes away one `n`-th of `y` at most. -/
theorem mul_le_tangent (hn : n ≠ 0) (hx : 0 ≤ x) (hy : 0 < y) :
    y - y / n ≤ tangent x n y := by
  have hn1 : (1 : K) ≤ n := by exact_mod_cast Nat.one_le_iff_ne_zero.2 hn
  have hquotient : 0 ≤ y * (x / y ^ n) := by positivity
  have hway := mul_sub_tangent (x := x) hn hy.ne'
  have hle : y - tangent x n y ≤ y / n := by
    rw [le_div_iff₀ (by linarith)]
    linarith
  linarith

theorem tangent_nonneg (hn : n ≠ 0) (hx : 0 ≤ x) (hy : 0 < y) : 0 ≤ tangent x n y := by
  have hn1 : (1 : K) ≤ n := by exact_mod_cast Nat.one_le_iff_ne_zero.2 hn
  have hle : y / n ≤ y := div_le_self hy.le hn1
  have := mul_le_tangent (x := x) hn hx hy
  linarith

/-- From above the root the tangent goes down. -/
theorem tangent_le (hn : n ≠ 0) (hy : 0 < y) (h : x ≤ y ^ n) : tangent x n y ≤ y := by
  have hn1 : (1 : K) ≤ n := by exact_mod_cast Nat.one_le_iff_ne_zero.2 hn
  have hquotient : x / y ^ n ≤ 1 := (div_le_one (by positivity)).2 h
  have hway := mul_sub_tangent (x := x) hn hy.ne'
  have hpos : 0 ≤ n * (y - tangent x n y) := by
    rw [hway]
    have := mul_le_mul_of_nonneg_left hquotient hy.le
    linarith
  have := nonneg_of_mul_nonneg_right hpos (by linarith)
  linarith

end Field

/-! ## Rounds -/

variable {x ε y : ℚ} {n : ℕ}

theorem improve_eq (hn : n ≠ 0) : improve x n ε y = roundTo (gridStep ε) (tangent x n y) := by
  have hpow : y ^ (n - 1) * y = y ^ n := pow_sub_one_mul hn y
  unfold improve tangent
  dsimp only
  rw [hpow]

/-- **A round ends within half a grid step of the tangent.** -/
theorem abs_improve_sub_tangent_le (hn : n ≠ 0) (hε : 0 < ε) :
    |improve x n ε y - tangent x n y| ≤ ε / 32 := by
  have h := abs_roundTo_sub_le (gridStep_pos hε) (tangent x n y)
  rw [improve_eq hn]
  rw [gridStep_eq] at h ⊢
  linarith

theorem improve_nonneg (hn : n ≠ 0) (hε : 0 < ε) (hx : 0 ≤ x) (hy : 0 < y) :
    0 ≤ improve x n ε y := by
  rw [improve_eq hn]
  exact roundTo_nonneg (gridStep_pos hε) (tangent_nonneg hn hx hy)

/-- A round that ends above zero ends one grid step above it at least. -/
theorem step_le_improve (hn : n ≠ 0) (hε : 0 < ε) (hpos : 0 < improve x n ε y) :
    ε / 16 ≤ improve x n ε y := by
  rw [improve_eq hn] at hpos ⊢
  exact step_le_roundTo (gridStep_pos hε) hpos

/-- The rounds from a point above zero: one round, and the others if it goes further than the
tolerance. -/
theorem descend_succ (hy : 0 < y) (rounds : ℕ) : descend x n ε (rounds + 1) y =
    if |improve x n ε y - y| ≤ ε then (improve x n ε y, .settled)
    else descend x n ε rounds (improve x n ε y) := by
  have hpow : y ^ (n - 1) ≠ 0 := pow_ne_zero _ hy.ne'
  rw [descend, if_neg hpow]
  dsimp only
  rw [rat_abs_eq]

end RadixCalc.NthRoot
