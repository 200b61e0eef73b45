import Mathlib.Analysis.Complex.Exponential
import Mathlib.Tactic.IntervalCases
import Mathlib.Tactic.Linarith
import RadixCalc.Proofs.Tangent

/-!
# The tangent against the root

How far the tangent at `y` of the power of order `n` ends from the root `r` of `r ^ n`.

* `le_tangent`, `mul_sub_le_pow_sub`: the tangent never ends below the root.
* `tangent_sub_le_sq`: above the root, the distance to it is squared.
* `tangent_sub_le_of_secant`: the secant through the root bounds the distance by the length of the
  step, in two ranges: `secant_of_pow_le_two`, `secant_of_order_le_five`.
* `pow_le_half`: far above the root, one round halves the power.
-/

namespace RadixCalc.NthRoot

variable {r y s ε : ℝ} {n : ℕ}

/-! ## Powers to the second order -/

/-- The power of `1 + s` is above its first three terms for positive `s`, and below them for
negative `s`. -/
theorem mul_pow_sub_nonneg (hs : -1 ≤ s) (n : ℕ) :
    0 ≤ s * ((1 + s) ^ n - (1 + n * s + n * (n - 1) / 2 * s ^ 2)) := by
  induction n with
  | zero => simp
  | succ n ih =>
    have hpairs : (0 : ℝ) ≤ n * (n - 1) := by
      rcases Nat.eq_zero_or_pos n with rfl | hn
      · simp
      have hn1 : (1 : ℝ) ≤ n := by exact_mod_cast hn
      exact mul_nonneg (by linarith) (by linarith)
    have hfourth : 0 ≤ n * (n - 1) / 2 * s ^ 4 := by positivity
    have hrest := mul_nonneg (show 0 ≤ 1 + s by linarith) ih
    calc 0 ≤ (1 + s) * (s * ((1 + s) ^ n - (1 + n * s + n * (n - 1) / 2 * s ^ 2))) +
          n * (n - 1) / 2 * s ^ 4 := add_nonneg hrest hfourth
      _ = s * ((1 + s) ^ (n + 1) - (1 + (n + 1 : ℕ) * s +
          (n + 1 : ℕ) * ((n + 1 : ℕ) - 1) / 2 * s ^ 2)) := by
        push_cast
        ring

theorem le_one_add_pow (hs : 0 < s) (n : ℕ) :
    1 + n * s + n * (n - 1) / 2 * s ^ 2 ≤ (1 + s) ^ n := by
  have h := nonneg_of_mul_nonneg_right (mul_pow_sub_nonneg (by linarith) n) hs
  linarith

theorem one_sub_pow_le (hs₀ : 0 ≤ s) (hs₁ : s ≤ 1) (n : ℕ) :
    (1 - s) ^ n ≤ 1 - n * s + n * (n - 1) / 2 * s ^ 2 := by
  rcases hs₀.eq_or_lt with rfl | hpos
  · simp
  have h := mul_pow_sub_nonneg (s := -s) (by linarith) n
  rw [neg_mul, ← mul_neg] at h
  have h' := nonneg_of_mul_nonneg_right h hpos
  rw [neg_sq, mul_neg, ← sub_eq_add_neg, ← sub_eq_add_neg] at h'
  linarith

/-! ## The tangent and the secant -/

/-- The tangent never ends below the root. -/
theorem le_tangent (hn : n ≠ 0) (hr : 0 ≤ r) (hy : 0 < y) : r ≤ tangent (r ^ n) n y :=
  le_of_pow_le_pow_left₀ hn (tangent_nonneg hn (by positivity) hy)
    (le_tangent_pow hn (by positivity) hy)

/-- The step of the tangent is the height over the slope. -/
theorem sub_tangent_mul (hn : n ≠ 0) (hy : 0 < y) :
    (y - tangent (r ^ n) n y) * (n * y ^ (n - 1)) = y ^ n - r ^ n := by
  have hn' : (n : ℝ) ≠ 0 := Nat.cast_ne_zero.2 hn
  unfold tangent
  rw [sub_sub_cancel]
  field_simp

/-- The power lies above its tangents. -/
theorem mul_sub_le_pow_sub (hn : n ≠ 0) {a b : ℝ} (ha : 0 < a) (hb : 0 ≤ b) :
    n * a ^ (n - 1) * (b - a) ≤ b ^ n - a ^ n := by
  have hslope : (0 : ℝ) < n * a ^ (n - 1) := by positivity
  have hstep := sub_tangent_mul (r := b) hn ha
  have hle := mul_le_mul_of_nonneg_right (le_tangent hn hb ha) hslope.le
  linarith

/-- **Above the root the distance to it is squared.** -/
theorem tangent_sub_le_sq (hn : n ≠ 0) (hr : 0 < r) (hry : r ≤ y) :
    tangent (r ^ n) n y - r ≤ n / (2 * r) * (y - r) ^ 2 := by
  have hy : 0 < y := hr.trans_le hry
  have hn0 : (0 : ℝ) < n := by exact_mod_cast Nat.pos_of_ne_zero hn
  set s := (y - r) / y with hs
  have hs₀ : 0 ≤ s := div_nonneg (by linarith) hy.le
  have hs₁ : s ≤ 1 := (div_le_one hy).2 (by linarith)
  have hroot : r = y * (1 - s) := by
    rw [hs]
    field_simp
    ring
  have hquotient : r ^ n / y ^ n = (1 - s) ^ n := by
    rw [hroot, mul_pow]
    field_simp
  have hsecond := one_sub_pow_le hs₀ hs₁ n
  calc tangent (r ^ n) n y - r = y * (1 + ((1 - s) ^ n - 1) / n) - y * (1 - s) := by
        rw [tangent_eq_mul hn hy.ne', hquotient, ← hroot]
    _ = y / n * (n * s - 1 + (1 - s) ^ n) := by
        field_simp
        ring
    _ ≤ y / n * (n * (n - 1) / 2 * s ^ 2) := by gcongr; linarith
    _ ≤ y / n * (n * n / 2 * s ^ 2) := by gcongr; linarith
    _ = n / (2 * y) * (y - r) ^ 2 := by
        rw [hs]
        field_simp
    _ ≤ n / (2 * r) * (y - r) ^ 2 := by gcongr

/-- From below the root the tangent does not go far past it. -/
theorem tangent_sub_le_of_le (hn : n ≠ 0) (hr : 0 < r) (hy : 0 < y) :
    tangent (r ^ n) n y - y ≤ (r - y) * (r ^ (n - 1) / y ^ (n - 1)) := by
  have hn0 : (0 : ℝ) < n := by exact_mod_cast Nat.pos_of_ne_zero hn
  have hslope : (0 : ℝ) < n * y ^ (n - 1) := by positivity
  have hstep := sub_tangent_mul (r := r) hn hy
  have hpower := mul_sub_le_pow_sub hn hr hy.le
  refine le_of_mul_le_mul_right ?_ hslope
  calc (tangent (r ^ n) n y - y) * (n * y ^ (n - 1)) = r ^ n - y ^ n := by linarith
    _ ≤ n * r ^ (n - 1) * (r - y) := by linarith
    _ = (r - y) * (r ^ (n - 1) / y ^ (n - 1)) * (n * y ^ (n - 1)) := by field_simp

/-- **The secant bounds the distance by the step**: if the secant from the root to `y` is not
flatter than 11/32 of the tangent at `y`, the tangent ends no further from the root than 21/11 of
its step. -/
theorem tangent_sub_le_of_secant (hn : n ≠ 0) (hy : 0 < y)
    (hsecant : 11 * (n * y ^ (n - 1)) * (y - r) ≤ 32 * (y ^ n - r ^ n)) :
    tangent (r ^ n) n y - r ≤ 21 / 11 * (y - tangent (r ^ n) n y) := by
  have hslope : (0 : ℝ) < n * y ^ (n - 1) := by positivity
  have hstep := sub_tangent_mul (r := r) hn hy
  have hle : 11 * (y - r) ≤ 32 * (y - tangent (r ^ n) n y) := by
    refine le_of_mul_le_mul_right ?_ hslope
    linarith
  linarith

theorem secant_of_pow_le_two (hn : n ≠ 0) (hr : 0 < r) (hry : r ≤ y) (h : y ^ n ≤ 2 * r ^ n) :
    11 * (n * y ^ (n - 1)) * (y - r) ≤ 32 * (y ^ n - r ^ n) := by
  have hy : 0 < y := hr.trans_le hry
  have hslopes : y ^ (n - 1) ≤ 2 * r ^ (n - 1) := by
    refine le_of_mul_le_mul_right ?_ hy
    calc y ^ (n - 1) * y = y ^ n := pow_sub_one_mul hn y
      _ ≤ 2 * r ^ n := h
      _ = 2 * r ^ (n - 1) * r := by rw [mul_assoc, pow_sub_one_mul hn]
      _ ≤ 2 * r ^ (n - 1) * y := by gcongr
  have hpower := mul_sub_le_pow_sub hn hr hy.le
  have hdistance : 0 ≤ n * (y - r) := mul_nonneg (Nat.cast_nonneg n) (by linarith)
  have hrise : 0 ≤ n * (y - r) * r ^ (n - 1) := by positivity
  have hscaled := mul_le_mul_of_nonneg_left hslopes hdistance
  linarith

theorem le_mul_of_pow_le (hn : n ≠ 0) (hr : 0 ≤ r) {c k : ℝ} (hk : 0 ≤ k) (hc : c ≤ k ^ n)
    (h : y ^ n ≤ c * r ^ n) : y ≤ k * r := by
  refine le_of_pow_le_pow_left₀ hn (by positivity) (h.trans ?_)
  rw [mul_pow]
  gcongr

/-- For an order up to five the whole range of the start will do: the power is so high at most that
the terms of the secant after the first make up for what the first one lacks. -/
theorem secant_of_order_le_five (hn : 2 ≤ n) (hn5 : n ≤ 5) (hr : 0 < r) (hry : r ≤ y)
    (h : y ^ n ≤ 2 ^ (n + 1) * r ^ n) :
    11 * (n * y ^ (n - 1)) * (y - r) ≤ 32 * (y ^ n - r ^ n) := by
  have hy : 0 < y := hr.trans_le hry
  have hd : 0 ≤ y - r := by linarith
  suffices hsum : ∃ t, 0 ≤ t ∧ 32 * (y ^ n - r ^ n) - 11 * (n * y ^ (n - 1)) * (y - r) = t * (y - r) by
    obtain ⟨t, ht, heq⟩ := hsum
    have := mul_nonneg ht hd
    linarith
  interval_cases n
  · exact ⟨10 * y + 32 * r, by positivity, by push_cast; ring⟩
  · have hk := le_mul_of_pow_le (k := 3) (by norm_num) hr.le (by norm_num) (by norm_num) h
    refine ⟨-y ^ 2 + 32 * (y * r + r ^ 2), ?_, by push_cast; ring⟩
    nlinarith
  · have hk := le_mul_of_pow_le (k := 12 / 5) (by norm_num) hr.le (by norm_num) (by norm_num) h
    refine ⟨-12 * y ^ 3 + 32 * (y ^ 2 * r + y * r ^ 2 + r ^ 3), ?_, by push_cast; ring⟩
    have h₁ : 0 ≤ y ^ 2 * (12 / 5 * r - y) := mul_nonneg (by positivity) (by linarith)
    have h₂ : 0 < y ^ 2 * r + y * r ^ 2 + r ^ 3 := by positivity
    nlinarith
  · have hk := le_mul_of_pow_le (k := 23 / 10) (by norm_num) hr.le (by norm_num) (by norm_num) h
    refine ⟨-23 * y ^ 4 + 32 * (y ^ 3 * r + y ^ 2 * r ^ 2 + y * r ^ 3 + r ^ 4), ?_,
      by push_cast; ring⟩
    have h₁ : 0 ≤ y ^ 3 * (23 / 10 * r - y) := mul_nonneg (by positivity) (by linarith)
    have h₂ : 0 ≤ y ^ 2 * r * (23 / 10 * r - y) := mul_nonneg (by positivity) (by linarith)
    have h₃ : 0 ≤ y * r ^ 2 * (23 / 10 * r - y) := mul_nonneg (by positivity) (by linarith)
    have h₄ : 0 < r ^ 4 := by positivity
    nlinarith

/-- Where the power is more than twice as high as at the root, the step is long. -/
theorem lt_sub_tangent (hn : n ≠ 0) (hy : 0 < y) (h : 2 * r ^ n < y ^ n) :
    y / (2 * n) < y - tangent (r ^ n) n y := by
  have hn0 : (0 : ℝ) < n := by exact_mod_cast Nat.pos_of_ne_zero hn
  have hquotient : r ^ n / y ^ n < 1 / 2 := by
    rw [div_lt_div_iff₀ (by positivity) (by norm_num)]
    linarith
  have hway := mul_sub_tangent (x := r ^ n) hn hy.ne'
  rw [div_lt_iff₀ (by positivity)]
  have := mul_lt_mul_of_pos_left hquotient hy
  linarith

/-! ## Far above the root -/

/-- Between one and `m`, the loss of a round in the power, `w` times that of the root, makes up for
half of `m`: the exponential is above its tangent, and `w / m + 1 / w` is largest at the ends. -/
theorem mul_exp_le_half {m w : ℝ} (hm : 4 ≤ m) (hw : 1 ≤ w) (hwm : w ≤ m) :
    w * Real.exp (-(1 - 1 / w - 1 / 66)) ≤ m / 2 := by
  have hw₀ : 0 < w := by linarith
  have hm₀ : 0 < m := by linarith
  have hends : w / m + 1 / w ≤ 1 + 1 / m := by
    have : 0 ≤ (w - 1) * (m - w) := mul_nonneg (by linarith) (by linarith)
    rw [div_add_div _ _ hm₀.ne' hw₀.ne', one_add_div hm₀.ne', div_le_div_iff₀ (by positivity) hm₀]
    nlinarith
  have hexponent : w / m - 1 - (1 - 1 / w - 1 / 66) ≤ -(97 / 132) := by
    have : 1 / m ≤ 1 / 4 := one_div_le_one_div_of_le (by norm_num) hm
    linarith
  have hhalf : Real.exp (-(97 / 132)) ≤ 1 / 2 := by
    have hquadratic := Real.quadratic_le_exp_of_nonneg (x := 97 / 132) (by norm_num)
    rw [Real.exp_neg, one_div]
    exact inv_anti₀ (by norm_num) (by linarith)
  have htangent : w ≤ m * Real.exp (w / m - 1) := by
    have hle := mul_le_mul_of_nonneg_left (Real.add_one_le_exp (w / m - 1)) hm₀.le
    rwa [sub_add_cancel, mul_div_cancel₀ _ hm₀.ne'] at hle
  calc w * Real.exp (-(1 - 1 / w - 1 / 66))
      ≤ m * Real.exp (w / m - 1) * Real.exp (-(1 - 1 / w - 1 / 66)) := by gcongr
    _ = m * Real.exp (w / m - 1 - (1 - 1 / w - 1 / 66)) := by
      rw [mul_assoc, ← Real.exp_add, ← sub_eq_add_neg]
    _ ≤ m * (1 / 2) := by
      gcongr
      exact (Real.exp_le_exp.2 hexponent).trans hhalf
    _ = m / 2 := by ring

/-- **Far above the root, one round halves the power**: with the power at most `m` times that of the
root, the round leaves at most half of that, though it may end a little above the tangent. -/
theorem pow_le_half (hn : n ≠ 0) (hr : 0 < r) (hry : r ≤ y) {m z : ℝ} (hm : 4 ≤ m)
    (hy : y ^ n ≤ m * r ^ n) (hz₀ : 0 ≤ z) (hz : z ≤ tangent (r ^ n) n y + r / (66 * n)) :
    z ^ n ≤ m / 2 * r ^ n := by
  have hn1 : (1 : ℝ) ≤ n := by exact_mod_cast Nat.one_le_iff_ne_zero.2 hn
  have hy₀ : 0 < y := hr.trans_le hry
  have hrn : 0 < r ^ n := by positivity
  set w := y ^ n / r ^ n with hw
  have hpower : y ^ n = w * r ^ n := by
    rw [hw]
    field_simp
  have hw₁ : 1 ≤ w := (one_le_div hrn).2 (pow_le_pow_left₀ hr.le hry n)
  have hwm : w ≤ m := (div_le_iff₀ hrn).2 hy
  have hinv : r ^ n / y ^ n = 1 / w := by rw [hw, one_div_div]
  set a := 1 - 1 / w - 1 / 66 with ha
  have han : a ≤ n := by
    have : 0 < 1 / w := by positivity
    linarith
  -- the round ends below a fixed part of `y`
  have hpart : z ≤ y * (1 - a / n) := by
    have hslack : r / (66 * n) ≤ y / (66 * n) := by gcongr
    rw [tangent_eq_mul hn hy₀.ne', hinv] at hz
    calc z ≤ y * (1 + (1 / w - 1) / n) + y / (66 * n) := by linarith
      _ = y * (1 - a / n) := by
        rw [ha]
        field_simp
        ring
  calc z ^ n ≤ (y * (1 - a / n)) ^ n := pow_le_pow_left₀ hz₀ hpart n
    _ = w * r ^ n * (1 - a / n) ^ n := by rw [mul_pow, hpower]
    _ ≤ w * r ^ n * Real.exp (-a) := by
      gcongr
      exact Real.one_sub_div_pow_le_exp_neg han
    _ = w * Real.exp (-a) * r ^ n := by ring
    _ ≤ m / 2 * r ^ n := by
      gcongr
      exact mul_exp_le_half hm hw₁ hwm

end RadixCalc.NthRoot
