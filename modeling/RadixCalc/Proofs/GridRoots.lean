import RadixCalc.Proofs.PowerStart

/-!
# Roots on the grid

A root that is a point of the grid is found exactly if it is large in proportion to the tolerance: the
tangent of a round no longer than the tolerance is less than half a grid step from it.

* `tangent_sub_lt_of_le`, `tangent_sub_lt_of_lt`: the last tangent, from above and from below the root.
* `improve_eq_of_settled`, `descend_eq_of_settled`: the last round, and all rounds that settle.
* `nthRoot_of_long_power`, `nthRoot_of_grid_power`: the root of a power of a grid point.
-/

namespace RadixCalc.NthRoot

/-! ## The last tangent -/

section

variable {x ε y : ℚ} {n : ℕ} {r : ℝ}

/-- **From above the root** a round no longer than the tolerance has its tangent less than half a grid
step past it: the distance to the root is three tolerances at most, and it is squared. -/
theorem tangent_sub_lt_of_le (h : IsRoot x ε n r) (hlarge : 128 * n * ε ≤ r) (hry : r ≤ y)
    (hnear : |improve x n ε y - y| ≤ ε) : tangent (r ^ n) n (y : ℝ) - r < ε / 32 := by
  have hr := h.pos
  have hε := h.cast_tolerance_pos
  have hn0 : (0 : ℝ) < n := by exact_mod_cast Nat.pos_of_ne_zero h.ne_zero
  have hunit : 0 < n * (ε : ℝ) := mul_pos hn0 hε
  have hfine : 33 / 16 * n * ε ≤ r := by linarith
  have hstep : |(improve x n ε y : ℝ) - y| ≤ ε := by exact_mod_cast hnear
  have hend := (abs_le.1 (abs_improve_sub_le h hry (Or.inr hfine) hnear)).2
  have hback := (abs_le.1 hstep).1
  have hround := (abs_le.1 (h.abs_improve_sub_tangent_le (y := y))).2
  have hsquare := tangent_sub_le_sq h.ne_zero hr hry
  set d : ℝ := y - r with hd
  have hd₀ : 0 ≤ d := by linarith
  have hd₃ : d ≤ 3 * ε := by linarith
  -- the square of the distance is little in proportion to it
  have hpart : n / (2 * r) * d ^ 2 ≤ 3 / 256 * d := by
    have hle : n * d * 128 ≤ 3 * r := by
      calc n * d * 128 ≤ n * (3 * ε) * 128 := by gcongr
        _ = 3 * (128 * n * ε) := by ring
        _ ≤ 3 * r := by gcongr
    calc n / (2 * r) * d ^ 2 = n * d * 128 / r * d / 256 := by
          field_simp
          ring
      _ ≤ 3 * d / 256 := by
          gcongr
          exact (div_le_iff₀ hr).2 hle
      _ = 3 / 256 * d := by ring
  linarith

/-- **From below the root** the tangent ends above it, so that the root is little more than a tolerance
away, where the slope is nearly the same. -/
theorem tangent_sub_lt_of_lt (h : IsRoot x ε n r) (hlarge : 128 * n * ε ≤ r) (hy : 0 < y)
    (hyr : y < r) (hnear : |improve x n ε y - y| ≤ ε) : tangent (r ^ n) n (y : ℝ) - r < ε / 32 := by
  have hr := h.pos
  have hε := h.cast_tolerance_pos
  have hn0 : (0 : ℝ) < n := by exact_mod_cast Nat.pos_of_ne_zero h.ne_zero
  have hy₀ : (0 : ℝ) < y := by exact_mod_cast hy
  have hstep : |(improve x n ε y : ℝ) - y| ≤ ε := by exact_mod_cast hnear
  have hup := (abs_le.1 hstep).2
  have hround := (abs_le.1 (h.abs_improve_sub_tangent_le (y := y))).1
  have hconvex := le_tangent h.ne_zero hr.le hy₀
  have hpast := tangent_sub_le_of_le h.ne_zero hr hy₀
  set d : ℝ := r - y with hd
  have hd₀ : 0 < d := by linarith
  -- the tangent is above the root, so the step covers all of the distance but the rounding
  have hd₁ : d ≤ 33 / 32 * ε := by linarith
  -- so small a part of the root that the two slopes differ by one part in 65 at most
  have hsmall : d ≤ r / (66 * n) := by
    rw [le_div_iff₀ (by positivity)]
    calc d * (66 * n) ≤ 33 / 32 * ε * (66 * n) := by gcongr
      _ ≤ 128 * n * ε := by
        have : 0 < n * (ε : ℝ) := mul_pos hn0 hε
        linarith
      _ ≤ r := hlarge
  have hslopes := mul_pow_le_of_sub_le h.ne_zero hr (show r - r / (66 * n) ≤ y by linarith)
  have hratio : r ^ (n - 1) / (y : ℝ) ^ (n - 1) ≤ 66 / 65 := by
    rw [div_le_div_iff₀ (by positivity) (by norm_num)]
    linarith
  have hle := mul_le_mul_of_nonneg_left hratio hd₀.le
  linarith

end

/-! ## Rounds to a root on the grid -/

variable {q ε y : ℚ} {n : ℕ}

theorem isRoot_pow (hn : 2 ≤ n) (hε : 0 < ε) (hq : 0 < q) : IsRoot (q ^ n) ε n q where
  two_le := hn
  tolerance_pos := hε
  pos := by exact_mod_cast hq
  pow_eq := by
    push_cast
    rfl

/-- **A round no longer than the tolerance ends on the root.** -/
theorem improve_eq_of_settled (hn : 2 ≤ n) (hε : 0 < ε) {m : ℤ} (hgrid : q = m * gridStep ε)
    (hlarge : 128 * n * ε ≤ q) (hy : 0 < y) (hnear : |improve (q ^ n) n ε y - y| ≤ ε) :
    improve (q ^ n) n ε y = q := by
  have hn0 : n ≠ 0 := by omega
  have hn' : (0 : ℚ) < n := by exact_mod_cast Nat.pos_of_ne_zero hn0
  have hq : 0 < q := lt_of_lt_of_le (by positivity) hlarge
  have h := isRoot_pow hn hε hq
  have hlarge' : 128 * n * ε ≤ (q : ℝ) := by exact_mod_cast hlarge
  -- the tangent is above the root by less than half a step of the grid, so it is rounded to the root
  have hbelow : q ≤ tangent (q ^ n) n y :=
    le_of_pow_le_pow_left₀ hn0 (tangent_nonneg hn0 h.nonneg hy) (le_tangent_pow hn0 h.nonneg hy)
  have habove : tangent (q ^ n) n y - q < ε / 32 := by
    have hreal : tangent ((q : ℝ) ^ n) n (y : ℝ) - q < ε / 32 := by
      rcases lt_or_ge (y : ℝ) q with hyq | hqy
      · exact tangent_sub_lt_of_lt h hlarge' hy hyq hnear
      · exact tangent_sub_lt_of_le h hlarge' hqy hnear
    unfold tangent at hreal ⊢
    exact_mod_cast hreal
  rw [improve_eq hn0]
  conv_rhs => rw [hgrid]
  refine roundTo_eq_of_abs_sub_lt (gridStep_pos hε) ?_
  rw [← hgrid, gridStep_eq, abs_of_nonneg (by linarith)]
  linarith

/-- **Rounds that settle end on the root**, whatever the start. -/
theorem descend_eq_of_settled (hn : 2 ≤ n) (hε : 0 < ε) {m : ℤ} (hgrid : q = m * gridStep ε)
    (hlarge : 128 * n * ε ≤ q) (rounds : ℕ) (hy : 0 < y) :
    (descend (q ^ n) n ε (rounds + 1) y).2 = .settled →
      (descend (q ^ n) n ε (rounds + 1) y).1 = q := by
  have hq : 0 ≤ q := le_trans (by positivity) hlarge
  refine descend_induction (P := fun r => r.2 = .settled → r.1 = q) hn hε (pow_nonneg hq n) ?_ ?_
    rounds hy
  · intro z hz hnear _
    exact improve_eq_of_settled hn hε hgrid hlarge hz hnear
  · intro z _ hcapped
    cases hcapped

/-- **Past the range of floating point** the rounds do settle for an order up to seventeen: the start is
a power of two, and half of the rounds bring it near enough for the others. -/
theorem nthRoot_of_long_power (hn : 2 ≤ n) (hn17 : n ≤ 17) (hε : 0 < ε) {m : ℤ}
    (hgrid : q = m * gridStep ε) (hlarge : 128 * n * ε ≤ q) (hsize : powerBits n ε ≤ maxPowerBits)
    (hestimate : estimate? (q ^ n) n = none) (hexponent : HasStartExponent (q ^ n) n) :
    nthRoot (q ^ n) n ε = .ok q := by
  have hn0 : n ≠ 0 := by omega
  have hn' : (0 : ℚ) < n := by exact_mod_cast Nat.pos_of_ne_zero hn0
  have hunit : 0 < n * ε := mul_pos hn' hε
  have hq : 0 < q := by linarith
  have horder : n ≤ maxSearchOrder := hn17.trans (by decide)
  have hrounds : maxRounds = 50 := rfl
  obtain ⟨habove, hbelow⟩ := powerOfTwo_bounds (pow_pos hq n) hn0 hexponent
  have htol := powerOfTwo_le_tolerance (l := 32) hn0 hε hsize hexponent (by decide)
  rw [← start_of_estimate? hestimate] at habove hbelow htol
  have hroot := isRoot_pow hn hε hq
  have hfine : 33 / 16 * n * ε ≤ (q : ℝ) := by
    have hlarge' : 128 * n * ε ≤ (q : ℝ) := by exact_mod_cast hlarge
    have hunit' : 0 < n * (ε : ℝ) := by exact_mod_cast hunit
    linarith
  have hle : q ≤ start (q ^ n) n := le_of_pow_le_pow_left₀ hn0 (start_pos _ _).le habove
  -- `n` rounds of the first phase and 33 of the second: fifty for the order seventeen
  have hsettles := (settles_of_powers hroot hfine (by exact_mod_cast hle) hbelow htol).mono
    (show n + 32 + 1 ≤ maxRounds by omega)
  rw [nthRoot_eq_descend hn hε (pow_pos hq n) horder hsize]
  exact congrArg Except.ok
    (descend_eq_of_settled hn hε hgrid hlarge 49 (start_pos _ _) (hsettles maxRounds le_rfl).1)

/-- **The root of a power of a grid point is that point** if it is large in proportion to the tolerance
and the rounds settle, whatever their start. For an order within the limits that holds of the start
that the root is searched from. -/
theorem nthRoot_of_grid_power (hn : 2 ≤ n) (hε : 0 < ε) {m : ℕ} (hgrid : q = m * (ε / 16))
    (hlarge : 32 * n ^ 3 * ε ≤ q) :
    (∀ y, 0 < y → (descend (q ^ n) n ε maxRounds y).2 = .settled →
      (descend (q ^ n) n ε maxRounds y).1 = q) ∧
    (n ≤ maxSearchOrder → powerBits n ε ≤ maxPowerBits →
      (descend (q ^ n) n ε maxRounds (start (q ^ n) n)).2 = .settled →
        nthRoot (q ^ n) n ε = .ok q) := by
  have hn2 : (2 : ℚ) ≤ n := by exact_mod_cast hn
  have hgrid' : q = (m : ℤ) * gridStep ε := by
    rw [hgrid, gridStep_eq, Int.cast_natCast]
  have hlarge' : 128 * n * ε ≤ q := by
    calc 128 * n * ε = 32 * (n * 2 ^ 2) * ε := by ring
      _ ≤ 32 * (n * n ^ 2) * ε := by gcongr
      _ = 32 * n ^ 3 * ε := by ring
      _ ≤ q := hlarge
  have hq : 0 < q := lt_of_lt_of_le (by positivity) hlarge
  refine ⟨fun y hy => descend_eq_of_settled hn hε hgrid' hlarge' 49 hy, ?_⟩
  intro horder hsize hsettled
  rw [nthRoot_eq_descend hn hε (pow_pos hq n) horder hsize]
  exact congrArg Except.ok
    (descend_eq_of_settled hn hε hgrid' hlarge' 49 (start_pos _ _) hsettled)

/-- The cube root of a thousand to a hundredth from a start a hundred times too far, and that of
`2 ^ 1200`, past the range of floating point. -/
theorem nthRoot_of_cube :
    (descend (10 ^ 3) 3 (1 / 100) maxRounds 1000).2 = .settled ∧
      (descend (10 ^ 3) 3 (1 / 100) maxRounds 1000).1 = 10 ∧
      nthRoot ((2 ^ 400) ^ 3) (3 : ℕ) (1 / 100) = .ok (2 ^ 400) := by
  have hten := nthRoot_of_grid_power (q := 10) (n := 3) (ε := 1 / 100) (m := 16000) (by norm_num)
    (by norm_num) (by norm_num) (by norm_num)
  have hlong := nthRoot_of_grid_power (q := 2 ^ 400) (n := 3) (ε := 1 / 100) (m := 1600 * 2 ^ 400)
    (by norm_num) (by norm_num) (by decide +kernel) (by decide +kernel)
  have hsettled : (descend (10 ^ 3) 3 (1 / 100) maxRounds 1000).2 = .settled := by decide +kernel
  have hestimate : estimate? ((2 ^ 400) ^ 3) 3 = none := estimate?_of_nearest? (by decide +kernel)
  refine ⟨hsettled, hten.1 1000 (by norm_num) hsettled,
    hlong.2 (by decide) (by decide +kernel) ?_⟩
  rw [start_of_estimate? hestimate]
  decide +kernel

end RadixCalc.NthRoot
