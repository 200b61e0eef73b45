import Mathlib.Analysis.SpecialFunctions.Pow.Real
import RadixCalc.Proofs.Descent
import RadixCalc.Proofs.Secant

/-!
# How many rounds a root takes

From a start above the root the rounds settle within two tolerances of it, provided that there are
enough of them. A first phase halves the power in each round, a second one squares the distance to
the root.

* `IsRoot`: a root and a tolerance to find it to.
* `Settles`: a number of rounds is enough from a point.
* `OnWay`: what is known of each point on the way.
* `settles_below`, `settles_of_le`, `settles_of_le_mul`: points below the root, and points within a
  few tolerances of zero.
* `mul_improve_sub_le`: a round squares the distance to the root.
* `settles_quadratic`, `settles_linear`: the two phases.
-/

namespace RadixCalc.NthRoot

variable {x ε y : ℚ} {n k : ℕ} {r : ℝ}

/-- A root `r` of order `n` of `x`, to be found to the tolerance `ε`. -/
structure IsRoot (x ε : ℚ) (n : ℕ) (r : ℝ) : Prop where
  two_le : 2 ≤ n
  tolerance_pos : 0 < ε
  pos : 0 < r
  pow_eq : r ^ n = x

theorem exists_isRoot (hx : 0 < x) (hn : 2 ≤ n) (hε : 0 < ε) : ∃ r, IsRoot x ε n r := by
  have hx' : (0 : ℝ) < x := by exact_mod_cast hx
  exact ⟨(x : ℝ) ^ (n⁻¹ : ℝ), hn, hε, Real.rpow_pos_of_pos hx' _,
    Real.rpow_inv_natCast_pow hx'.le (by omega)⟩

namespace IsRoot

theorem ne_zero (h : IsRoot x ε n r) : n ≠ 0 := by
  have := h.two_le
  omega

theorem cast_tolerance_pos (h : IsRoot x ε n r) : (0 : ℝ) < ε := by exact_mod_cast h.tolerance_pos

theorem nonneg (h : IsRoot x ε n r) : 0 ≤ x := by
  have hpow : (0 : ℝ) ≤ r ^ n := pow_nonneg h.pos.le n
  rw [h.pow_eq] at hpow
  exact_mod_cast hpow

/-- A round ends within half a grid step of the tangent. -/
theorem abs_improve_sub_tangent_le (h : IsRoot x ε n r) :
    |(improve x n ε y : ℝ) - tangent (r ^ n) n y| ≤ ε / 32 := by
  have hcast : ((tangent x n y : ℚ) : ℝ) = tangent (r ^ n) n (y : ℝ) := by
    unfold tangent
    rw [h.pow_eq]
    push_cast
    rfl
  rw [← hcast]
  exact_mod_cast NthRoot.abs_improve_sub_tangent_le (x := x) (y := y) h.ne_zero h.tolerance_pos

/-- No round ends below the root by more than half a grid step. -/
theorem sub_le_improve (h : IsRoot x ε n r) (hy : 0 < y) : r - ε / 32 ≤ improve x n ε y := by
  have hround := (abs_le.1 (h.abs_improve_sub_tangent_le (y := y))).1
  have htangent := le_tangent h.ne_zero h.pos.le (show (0 : ℝ) < y by exact_mod_cast hy)
  linarith

/-- Half a grid step is at most one part in `66 n` of a root that is large in proportion to the
tolerance. -/
theorem half_step_le (h : IsRoot x ε n r) (hfine : 33 / 16 * n * ε ≤ r) :
    (ε : ℝ) / 32 ≤ r / (66 * n) := by
  have hn0 : (0 : ℝ) < n := by exact_mod_cast Nat.pos_of_ne_zero h.ne_zero
  rw [le_div_iff₀ (by positivity)]
  linarith

/-- Being within two tolerances of the root, in terms of powers. -/
theorem pow_bounds (h : IsRoot x ε n r) {v : ℚ} (hv : |(v : ℝ) - r| ≤ 2 * ε) :
    x ≤ (v + 2 * ε) ^ n ∧ (v - 2 * ε ≤ 0 ∨ (v - 2 * ε) ^ n ≤ x) := by
  obtain ⟨hlow, hhigh⟩ := abs_le.1 hv
  constructor
  · have hle : r ^ n ≤ ((v : ℝ) + 2 * ε) ^ n := pow_le_pow_left₀ h.pos.le (by linarith) n
    rw [h.pow_eq] at hle
    exact_mod_cast hle
  · refine or_iff_not_imp_left.2 fun hpos => ?_
    have hpos' : (0 : ℝ) < v - 2 * ε := by exact_mod_cast not_le.1 hpos
    have hle : ((v : ℝ) - 2 * ε) ^ n ≤ r ^ n := pow_le_pow_left₀ hpos'.le (by linarith) n
    rw [h.pow_eq] at hle
    exact_mod_cast hle

end IsRoot

/-- **`k` rounds are enough from `y`**: that many rounds, or more, settle within two tolerances of
the root. -/
def Settles (x ε : ℚ) (n : ℕ) (r : ℝ) (k : ℕ) (y : ℚ) : Prop :=
  ∀ rounds, k ≤ rounds → (descend x n ε rounds y).2 = .settled ∧
    |((descend x n ε rounds y).1 : ℝ) - r| ≤ 2 * ε

theorem Settles.mono {k' : ℕ} (h : Settles x ε n r k y) (hk : k ≤ k') : Settles x ε n r k' y :=
  fun rounds hrounds => h rounds (by omega)

/-- **One round more.** A round no longer than the tolerance has to end near the root, and a longer
one where `k` rounds are enough. -/
theorem settles_succ (hy : 0 < y)
    (hnear : |improve x n ε y - y| ≤ ε → |(improve x n ε y : ℝ) - r| ≤ 2 * ε)
    (hfar : ε < |improve x n ε y - y| → Settles x ε n r k (improve x n ε y)) :
    Settles x ε n r (k + 1) y := by
  intro rounds hrounds
  obtain ⟨m, rfl⟩ : ∃ m, rounds = m + 1 := ⟨rounds - 1, by omega⟩
  rw [descend_succ hy]
  split
  · rename_i hle
    exact ⟨rfl, hnear hle⟩
  · rename_i hgt
    exact hfar (not_le.1 hgt) m (by omega)

/-- **The last round.** -/
theorem settles_one (hy : 0 < y) (hstep : |(improve x n ε y : ℝ) - y| ≤ ε)
    (hnear : |(improve x n ε y : ℝ) - r| ≤ 2 * ε) : Settles x ε n r 1 y := by
  have hle : |improve x n ε y - y| ≤ ε := by exact_mod_cast hstep
  exact settles_succ hy (fun _ => hnear) fun hfar => absurd hle (not_le.2 hfar)

/-! ## The points on the way -/

/-- **What is known of each point on the way**: it is above zero, and below the root, if at all, by
half a grid step at most and not by much in proportion. -/
structure OnWay (ε y : ℚ) (n : ℕ) (r : ℝ) : Prop where
  pos : 0 < y
  sub_le : r - ε / 32 ≤ y
  pow_le : r ^ (n - 1) ≤ 31 * (y : ℝ) ^ (n - 1)

theorem onWay_of_le (h : IsRoot x ε n r) (hry : r ≤ y) : OnWay ε y n r where
  pos := by exact_mod_cast h.pos.trans_le hry
  sub_le := by
    have := h.cast_tolerance_pos
    linarith
  pow_le := by
    have hle : r ^ (n - 1) ≤ (y : ℝ) ^ (n - 1) := pow_le_pow_left₀ h.pos.le hry _
    have := pow_pos h.pos (n - 1)
    linarith

theorem pow_le_of_le_mul {z : ℝ} (hn5 : n ≤ 5) (hr : 0 ≤ r) (hz : 0 ≤ z) (h : r ≤ 3 / 2 * z) :
    r ^ (n - 1) ≤ 31 * z ^ (n - 1) := by
  calc r ^ (n - 1) ≤ (3 / 2 * z) ^ (n - 1) := pow_le_pow_left₀ hr h _
    _ = (3 / 2) ^ (n - 1) * z ^ (n - 1) := mul_pow _ _ _
    _ ≤ (3 / 2) ^ 4 * z ^ (n - 1) := by
      gcongr
      · norm_num
      · omega
    _ ≤ 31 * z ^ (n - 1) := by gcongr; norm_num

/-- One part in `66 n` less makes the power less by one part in `66` at most. -/
theorem mul_pow_le_of_sub_le {z : ℝ} (hn : n ≠ 0) (hr : 0 < r) (h : r - r / (66 * n) ≤ z) :
    65 * r ^ (n - 1) ≤ 66 * z ^ (n - 1) := by
  have hn1 : (1 : ℝ) ≤ n := by exact_mod_cast Nat.one_le_iff_ne_zero.2 hn
  have hn' : ((n - 1 : ℕ) : ℝ) = n - 1 := Nat.cast_pred (Nat.pos_of_ne_zero hn)
  set part : ℝ := 1 / (66 * n) with hpart
  have hbase : r * (1 + -part) ≤ z := by
    have : r * (1 + -part) = r - r / (66 * n) := by
      rw [hpart]
      ring
    linarith
  have hsmall : part ≤ 1 / 66 := one_div_le_one_div_of_le (by norm_num) (by linarith)
  have hloss : ((n - 1 : ℕ) : ℝ) * part ≤ 1 / 66 := by
    rw [hn', hpart, mul_one_div, div_le_div_iff₀ (by positivity) (by norm_num)]
    linarith
  have hbernoulli := one_add_mul_le_pow (a := -part) (by linarith) (n - 1)
  calc 65 * r ^ (n - 1) = 66 * (r ^ (n - 1) * (65 / 66)) := by ring
    _ ≤ 66 * (r ^ (n - 1) * (1 + -part) ^ (n - 1)) := by
        gcongr
        linarith
    _ = 66 * (r * (1 + -part)) ^ (n - 1) := by rw [mul_pow]
    _ ≤ 66 * z ^ (n - 1) := by
        have : 0 ≤ r * (1 + -part) := mul_nonneg hr.le (by linarith)
        gcongr

/-- The way goes on if the order is small or the root is large. In the one case the least point of
the grid is not far below the root, in the other half a step of it is little. -/
theorem onWay_improve (h : IsRoot x ε n r) (hy : 0 < y) (hfar : ε < |improve x n ε y - y|)
    (hrange : n ≤ 5 ∨ 33 / 16 * n * ε ≤ r) : OnWay ε (improve x n ε y) n r := by
  have hpos := improve_pos_of_lt h.two_le h.tolerance_pos h.nonneg hy hfar
  have hle := h.sub_le_improve hy
  refine ⟨hpos, hle, ?_⟩
  rcases hrange with hn5 | hfine
  · have hgrid : (ε : ℝ) / 16 ≤ improve x n ε y := by
      exact_mod_cast step_le_improve h.ne_zero h.tolerance_pos hpos
    exact pow_le_of_le_mul hn5 h.pos.le (by exact_mod_cast hpos.le) (by linarith)
  · have hpart := h.half_step_le hfine
    have hslopes := mul_pow_le_of_sub_le h.ne_zero h.pos (z := improve x n ε y) (by linarith)
    have hpow : (0 : ℝ) < (improve x n ε y : ℝ) ^ (n - 1) := pow_pos (by exact_mod_cast hpos) _
    linarith

/-- **From below the root one round is enough.** -/
theorem settles_below (h : IsRoot x ε n r) (hw : OnWay ε y n r) (hyr : y < r) :
    Settles x ε n r 1 y := by
  have hε := h.cast_tolerance_pos
  have hy : (0 : ℝ) < y := by exact_mod_cast hw.pos
  obtain ⟨hdown, hup⟩ := abs_le.1 (h.abs_improve_sub_tangent_le (y := y))
  have htangent := le_tangent h.ne_zero h.pos.le hy
  have hstep : tangent (r ^ n) n (y : ℝ) - y ≤ ε / 32 * 31 := by
    refine (tangent_sub_le_of_le h.ne_zero h.pos hy).trans ?_
    have hratio : r ^ (n - 1) / (y : ℝ) ^ (n - 1) ≤ 31 :=
      (div_le_iff₀ (by positivity)).2 hw.pow_le
    have hratio₀ : 0 ≤ r ^ (n - 1) / (y : ℝ) ^ (n - 1) := by
      have := h.pos
      positivity
    exact mul_le_mul (by linarith [hw.sub_le]) hratio hratio₀ (by linarith)
  exact settles_one hw.pos (abs_le.2 ⟨by linarith, by linarith⟩)
    (abs_le.2 ⟨by linarith, by linarith⟩)

/-- A round no longer than the tolerance, from above the root, ends within two tolerances of it if
the order is small or the root is large. -/
theorem abs_improve_sub_le (h : IsRoot x ε n r) (hry : r ≤ y)
    (hrange : (n ≤ 5 ∧ (y : ℝ) ^ n ≤ 2 ^ (n + 1) * r ^ n) ∨ 33 / 16 * n * ε ≤ r)
    (hnear : |improve x n ε y - y| ≤ ε) : |(improve x n ε y : ℝ) - r| ≤ 2 * ε := by
  have hr := h.pos
  have hε := h.cast_tolerance_pos
  have hy : (0 : ℝ) < y := hr.trans_le hry
  have hnear' : |(improve x n ε y : ℝ) - y| ≤ ε := by exact_mod_cast hnear
  have hdown := (abs_le.1 hnear').1
  obtain ⟨hlow, hhigh⟩ := abs_le.1 (h.abs_improve_sub_tangent_le (y := y))
  have htangent := le_tangent h.ne_zero hr.le hy
  have hstep : (y : ℝ) - tangent (r ^ n) n y ≤ 33 / 32 * ε := by linarith
  have hsecant : 11 * (n * (y : ℝ) ^ (n - 1)) * (y - r) ≤ 32 * ((y : ℝ) ^ n - r ^ n) := by
    rcases hrange with ⟨hn5, hpow⟩ | hfine
    · exact secant_of_order_le_five h.two_le hn5 hr hry hpow
    refine secant_of_pow_le_two h.ne_zero hr hry (not_lt.1 fun hlt => ?_)
    -- a high power would make the step longer than the tolerance
    have hlong := lt_sub_tangent h.ne_zero hy hlt
    have hn0 : (0 : ℝ) < n := by exact_mod_cast Nat.pos_of_ne_zero h.ne_zero
    have hle : 33 / 32 * (ε : ℝ) ≤ y / (2 * n) := by
      rw [le_div_iff₀ (by positivity)]
      linarith
    linarith
  have hdistance := tangent_sub_le_of_secant h.ne_zero hy hsecant
  exact abs_le.2 ⟨by linarith, by linarith⟩

/-! ## A root of a few tolerances -/

/-- A start within the tolerance of zero. -/
theorem settles_of_le (h : IsRoot x ε n r) (hry : r ≤ y) (hy : y ≤ ε) : Settles x ε n r 1 y := by
  have hr := h.pos
  have hε := h.cast_tolerance_pos
  have hw := onWay_of_le h hry
  have hy₀ : (0 : ℝ) < y := hr.trans_le hry
  have hyε : (y : ℝ) ≤ ε := by exact_mod_cast hy
  have hhigh := (abs_le.1 (h.abs_improve_sub_tangent_le (y := y))).2
  have hlow := h.sub_le_improve hw.pos
  have htangent := tangent_le h.ne_zero hy₀ (pow_le_pow_left₀ hr.le hry n)
  have hz : (0 : ℝ) ≤ improve x n ε y := by
    exact_mod_cast improve_nonneg h.ne_zero h.tolerance_pos h.nonneg hw.pos
  exact settles_one hw.pos (abs_le.2 ⟨by linarith, by linarith⟩)
    (abs_le.2 ⟨by linarith, by linarith⟩)

/-- From above the root a round longer than the tolerance goes down by more than it. -/
theorem improve_lt_sub (h : IsRoot x ε n r) (hry : r ≤ y) (hfar : ε < |improve x n ε y - y|) :
    improve x n ε y < y - ε := by
  have hε := h.cast_tolerance_pos
  have hy₀ : (0 : ℝ) < y := h.pos.trans_le hry
  have hhigh := (abs_le.1 (h.abs_improve_sub_tangent_le (y := y))).2
  have htangent := tangent_le h.ne_zero hy₀ (pow_le_pow_left₀ h.pos.le hry n)
  have hup : (improve x n ε y : ℝ) - y ≤ ε := by linarith
  rcases lt_abs.1 hfar with hlt | hlt
  · exact absurd hup (not_le.2 (by exact_mod_cast hlt))
  · linarith

/-- **A small order**: each round goes down by more than the tolerance, or is the last one. -/
theorem settles_of_le_mul (h : IsRoot x ε n r) (hn5 : n ≤ 5) (k : ℕ) :
    ∀ {y : ℚ}, OnWay ε y n r → (y : ℝ) ^ n ≤ 2 ^ (n + 1) * r ^ n → y ≤ (k + 1) * ε →
      Settles x ε n r (k + 1) y := by
  induction k with
  | zero =>
    intro y hw _ hy
    rcases lt_or_ge (y : ℝ) r with hyr | hry
    · exact settles_below h hw hyr
    · exact settles_of_le h hry (by simpa using hy)
  | succ k ih =>
    intro y hw hpow hy
    rcases lt_or_ge (y : ℝ) r with hyr | hry
    · exact (settles_below h hw hyr).mono (by omega)
    refine settles_succ hw.pos (abs_improve_sub_le h hry (Or.inl ⟨hn5, hpow⟩)) fun hfar => ?_
    have hw' := onWay_improve h hw.pos hfar (Or.inl hn5)
    have hlt := improve_lt_sub h hry hfar
    refine ih hw' ?_ ?_
    · have hle : (improve x n ε y : ℝ) ≤ y := by
        have := h.tolerance_pos
        exact_mod_cast (by linarith : improve x n ε y ≤ y)
      have hz : (0 : ℝ) ≤ improve x n ε y := by exact_mod_cast hw'.pos.le
      exact (pow_le_pow_left₀ hz hle n).trans hpow
    · push_cast at hy
      linarith

/-! ## A root of many tolerances -/

/-- From above the root by less than the tolerance, one round is enough. -/
theorem settles_of_sub_le (h : IsRoot x ε n r) (hfine : 33 / 16 * n * ε ≤ r) (hry : r ≤ y)
    (hd : y - r ≤ 31 / 32 * ε) : Settles x ε n r 1 y := by
  have hε := h.cast_tolerance_pos
  have hw := onWay_of_le h hry
  have hlow := h.sub_le_improve hw.pos
  refine settles_succ hw.pos (abs_improve_sub_le h hry (Or.inr hfine)) fun hfar => ?_
  have hlt : (improve x n ε y : ℝ) < y - ε := by exact_mod_cast improve_lt_sub h hry hfar
  linarith

/-- The bound that the distance to the root has to reach in the unit `60 r / 31 n`, so that the next
round settles. -/
theorem mul_last_eq (hr : r ≠ 0) (ε : ℚ) (n : ℕ) :
    60 * r * (961 * n * ε / (1920 * r)) = 31 * n * (31 / 32 * ε) := by
  field_simp
  ring

/-- **A round squares the distance to the root**, in the unit `60 r / 31 n`, or leaves so little that
the next round settles. -/
theorem mul_improve_sub_le (h : IsRoot x ε n r) (hry : r ≤ y) {b : ℝ}
    (hd : 31 * n * (y - r) ≤ 60 * r * b) :
    31 * n * (improve x n ε y - r) ≤ 60 * r * max (b ^ 2) (961 * n * ε / (1920 * r)) := by
  have hr := h.pos
  have hround := (abs_le.1 (h.abs_improve_sub_tangent_le (y := y))).2
  have hsquare := tangent_sub_le_sq h.ne_zero hr hry
  have hunit := mul_last_eq hr.ne' ε n
  set last : ℝ := 961 * n * ε / (1920 * r) with hlast
  have hdistance : (31 * n * (y - r)) ^ 2 ≤ (60 * r * b) ^ 2 := by
    refine pow_le_pow_left₀ ?_ hd 2
    have : 0 ≤ (y : ℝ) - r := by linarith
    positivity
  calc 31 * n * ((improve x n ε y : ℝ) - r)
      ≤ 31 * n * (n / (2 * r) * ((y : ℝ) - r) ^ 2 + ε / 32) := by
        gcongr
        linarith
    _ = (31 * n * ((y : ℝ) - r)) ^ 2 / (62 * r) + 60 * r * last / 31 := by
        rw [hunit]
        field_simp
        ring
    _ ≤ (60 * r * b) ^ 2 / (62 * r) + 60 * r * last / 31 := by gcongr
    _ = 60 * r * (30 / 31 * b ^ 2 + 1 / 31 * last) := by
        field_simp
        ring
    _ ≤ 60 * r * max (b ^ 2) last := by
        gcongr
        linarith [le_max_left (b ^ 2) last, le_max_right (b ^ 2) last]

/-- **The second phase.** The distance to the root, in the unit `60 r / 31 n`, is at most `b`, and a
round makes it at most `b ^ 2`, or so little that the next round settles. -/
theorem settles_quadratic (h : IsRoot x ε n r) (hfine : 33 / 16 * n * ε ≤ r) (l : ℕ) :
    ∀ {b : ℝ} {y : ℚ}, OnWay ε y n r → 31 * n * (y - r) ≤ 60 * r * b →
      b ^ 2 ^ l ≤ 961 * n * ε / (1920 * r) → Settles x ε n r (l + 1) y := by
  have hr := h.pos
  have hε := h.cast_tolerance_pos
  have hn0 : (0 : ℝ) < n := by exact_mod_cast Nat.pos_of_ne_zero h.ne_zero
  induction l with
  | zero =>
    intro b y hw hd hb
    rcases lt_or_ge (y : ℝ) r with hyr | hry
    · exact settles_below h hw hyr
    refine settles_of_sub_le h hfine hry ?_
    have hle : 31 * n * (y - r) ≤ 31 * n * (31 / 32 * ε) := by
      refine (hd.trans ?_).trans_eq (mul_last_eq hr.ne' ε n)
      rw [pow_zero, pow_one] at hb
      gcongr
    exact le_of_mul_le_mul_left hle (by positivity)
  | succ l ih =>
    intro b y hw hd hb
    rcases lt_or_ge (y : ℝ) r with hyr | hry
    · exact (settles_below h hw hyr).mono (by omega)
    refine settles_succ hw.pos (abs_improve_sub_le h hry (Or.inr hfine)) fun hfar => ?_
    have hlast₀ : (0 : ℝ) ≤ 961 * n * ε / (1920 * r) := by positivity
    have hlast₁ : 961 * n * ε / (1920 * r) ≤ 1 := by
      rw [div_le_one (by positivity)]
      linarith
    refine ih (onWay_improve h hw.pos hfar (Or.inr hfine)) (mul_improve_sub_le h hry hd) ?_
    rcases max_choice (b ^ 2) (961 * n * ε / (1920 * r)) with hmax | hmax
    · rw [hmax, ← pow_mul, ← pow_succ']
      exact hb
    · rw [hmax]
      exact pow_le_of_le_one hlast₀ hlast₁ (by positivity)

/-- A point whose power is twice that of the root at most: the power at `r (1 + 30 / 31 n)` is more. -/
theorem le_mul_of_pow_le_two {y : ℝ} (hn : 2 ≤ n) (hr : 0 < r) (hpow : y ^ n ≤ 2 * r ^ n) :
    y ≤ (1 + 30 / 31 / n) * r := by
  have hn2 : (2 : ℝ) ≤ n := by exact_mod_cast hn
  refine le_mul_of_pow_le (by omega) hr.le (by positivity) ?_ hpow
  refine le_trans ?_ (le_one_add_pow (by positivity) n)
  have hterms : 1 + n * (30 / 31 / n) + n * (n - 1) / 2 * (30 / 31 / n) ^ 2 =
      1 + 30 / 31 + 450 / 961 * ((n - 1) / n : ℝ) := by
    field_simp
    ring
  have hhalf : 1 / 2 ≤ ((n : ℝ) - 1) / n := by
    rw [div_le_div_iff₀ (by norm_num) (by positivity)]
    linarith
  rw [hterms]
  linarith

/-- **The first phase** halves the power in each round, down to twice that of the root. -/
theorem settles_linear (h : IsRoot x ε n r) (hfine : 33 / 16 * n * ε ≤ r) {l : ℕ}
    (hl : (1 / 2 : ℝ) ^ 2 ^ l ≤ 961 * n * ε / (1920 * r)) (j : ℕ) :
    ∀ {y : ℚ}, OnWay ε y n r → (y : ℝ) ^ n ≤ 2 ^ (j + 1) * r ^ n →
      Settles x ε n r (j + l + 1) y := by
  have hr := h.pos
  induction j with
  | zero =>
    intro y hw hpow
    rw [zero_add]
    refine settles_quadratic h hfine l hw ?_ hl
    have hn0 : (0 : ℝ) < n := by exact_mod_cast Nat.pos_of_ne_zero h.ne_zero
    have hle := le_mul_of_pow_le_two h.two_le hr (by simpa using hpow)
    calc 31 * n * ((y : ℝ) - r) ≤ 31 * n * ((1 + 30 / 31 / n) * r - r) := by gcongr
      _ = 60 * r * (1 / 2) := by
        field_simp
        ring
  | succ j ih =>
    intro y hw hpow
    rcases lt_or_ge (y : ℝ) r with hyr | hry
    · exact (settles_below h hw hyr).mono (by omega)
    rw [show j + 1 + l + 1 = j + l + 1 + 1 by omega]
    refine settles_succ hw.pos (abs_improve_sub_le h hry (Or.inr hfine)) fun hfar => ?_
    have hw' := onWay_improve h hw.pos hfar (Or.inr hfine)
    have hround := (abs_le.1 (h.abs_improve_sub_tangent_le (y := y))).2
    have hslack := h.half_step_le hfine
    have hm : (4 : ℝ) ≤ 2 ^ (j + 1 + 1) := by
      calc (4 : ℝ) = 2 ^ 2 := by norm_num
        _ ≤ 2 ^ (j + 1 + 1) := pow_le_pow_right₀ (by norm_num) (by omega)
    have hhalf := pow_le_half h.ne_zero hr hry hm hpow (by exact_mod_cast hw'.pos.le)
      (show (improve x n ε y : ℝ) ≤ _ by linarith)
    refine ih hw' (hhalf.trans_eq ?_)
    rw [pow_succ (2 : ℝ) (j + 1)]
    ring

end RadixCalc.NthRoot
