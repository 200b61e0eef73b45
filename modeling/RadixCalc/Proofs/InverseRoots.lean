import RadixCalc.Proofs.PowerStart
import RadixCalc.Proofs.Recovery

/-!
# Roots of negative order

A root of negative order is the inverse of the root of the opposite order, which is found on a grid.
A root below half a grid step may be found to be zero, and then there is no inverse.

* `NthRoot.lt_pow_of_improve_eq_zero`, `NthRoot.lt_pow_of_descend_eq_zero`: the rounds come to zero
  only if the root is below half a grid step.
* `RootOfZero.lt_pow`: the same of every root found to be zero.
* `NthRoot.descend_of_lt`, `nthRoot_of_start_lt`: a start below half a grid step comes to zero.
* `lt_pow_of_divisionByZero`, `divisionByZero_of_tiny_root`: when a root divides by zero, and a number
  above zero with a root that does.
-/

namespace RadixCalc

variable {x ε y : ℚ} {n : ℕ} {order : ℤ}

namespace NthRoot

/-! ## Rounds that come to zero -/

/-- A round that ends at zero has its tangent below half a grid step, and the root is not above the
tangent. -/
theorem lt_pow_of_improve_eq_zero (hn : n ≠ 0) (hε : 0 < ε) (hx : 0 ≤ x) (hy : 0 < y)
    (hzero : improve x n ε y = 0) : x < (ε / 32) ^ n := by
  have htangent := tangent_nonneg hn hx hy
  rw [improve_eq hn, roundTo_eq_zero_iff (gridStep_pos hε) htangent, gridStep_eq] at hzero
  calc x ≤ tangent x n y ^ n := le_tangent_pow hn hx hy
    _ < (ε / 32) ^ n := pow_lt_pow_left₀ (by linarith) htangent hn

/-- **Rounds come to zero only if the root is below half a grid step.** -/
theorem lt_pow_of_descend_eq_zero (hn : 2 ≤ n) (hε : 0 < ε) (hx : 0 ≤ x) (rounds : ℕ) (hy : 0 < y) :
    (descend x n ε (rounds + 1) y).1 = 0 → x < (ε / 32) ^ n := by
  have hn0 : n ≠ 0 := by omega
  refine descend_induction (P := fun r => r.1 = 0 → x < (ε / 32) ^ n) hn hε hx ?_ ?_ rounds hy
  · intro z hz _ hzero
    exact lt_pow_of_improve_eq_zero hn0 hε hx hz hzero
  · intro z hz hzero
    exact lt_pow_of_improve_eq_zero hn0 hε hx hz hzero

theorem lt_pow_of_ofPositive_eq_zero (hn : 2 ≤ n) (hε : 0 < ε) (hx : 0 ≤ x)
    (h : ofPositive x n ε = .ok 0) : x < (ε / 32) ^ n := by
  unfold ofPositive at h
  split at h
  · cases h
  · exact lt_pow_of_descend_eq_zero hn hε hx 49 (start_pos x n) (Except.ok.inj h)

/-- A root of any number found to be zero: the number is zero, or the root is searched for and below
half a grid step. -/
theorem lt_pow_of_ofOrder_eq_zero (hn : n ≠ 0) (hε : 0 < ε) (h : ofOrder x n ε = .ok 0) :
    x = 0 ∨ n ≠ 1 ∧ |x| < (ε / 32) ^ n := by
  unfold ofOrder at h
  split at h
  · exact .inl (Except.ok.inj h)
  rename_i hsearch
  rw [Bool.or_eq_true, decide_eq_true_eq, decide_eq_true_eq, not_or] at hsearch
  have hn2 : 2 ≤ n := by omega
  refine .inr ⟨hsearch.2, ?_⟩
  split at h
  · rename_i hneg
    split at h
    -- an even order has no root, and no zero
    · cases h
    -- the root of a negative number is that of the opposite one
    obtain ⟨root, hroot, hopposite⟩ := bind_eq_ok_iff.1 h
    rw [neg_eq_zero.1 (Except.ok.inj hopposite)] at hroot
    rw [abs_of_neg hneg]
    exact lt_pow_of_ofPositive_eq_zero hn2 hε (by linarith) hroot
  · rename_i hnonneg
    rw [abs_of_nonneg (not_lt.1 hnonneg)]
    exact lt_pow_of_ofPositive_eq_zero hn2 hε (not_lt.1 hnonneg) h

/-! ## Starts below half a grid step -/

/-- From above the root and below half a grid step, the first round comes to zero and settles. -/
theorem descend_of_lt (hn : n ≠ 0) (hε : 0 < ε) (hx : 0 ≤ x) (hy : 0 < y) (habove : x ≤ y ^ n)
    (hsmall : y < ε / 32) (rounds : ℕ) : descend x n ε (rounds + 1) y = (0, .settled) := by
  have htangent := tangent_le hn hy habove
  have hzero : improve x n ε y = 0 := by
    rw [improve_eq hn, roundTo_eq_zero_iff (gridStep_pos hε) (tangent_nonneg hn hx hy), gridStep_eq]
    linarith
  have hnear : |improve x n ε y - y| ≤ ε := by
    rw [hzero, zero_sub, abs_neg, abs_of_pos hy]
    linarith
  rw [descend_succ hy, if_pos hnear, hzero]

end NthRoot

/-! ## The inverse -/

/-- A root found to be zero is that of zero, or it is below half a grid step. -/
theorem RootOfZero.lt_pow (h : RootOfZero ε x order) :
    x = 0 ∨ order ≠ -1 ∧ |x| < (ε / 32) ^ order.natAbs := by
  have hneg := h.negative
  refine (NthRoot.lt_pow_of_ofOrder_eq_zero (by omega) h.tolerance h.zero).imp_right ?_
  rintro ⟨hone, hlt⟩
  exact ⟨by omega, hlt⟩

/-- **A start above the root and below half a grid step** leaves a root of negative order without an
inverse, though the number is above zero. -/
theorem nthRoot_of_start_lt (hn : 2 ≤ n) (hε : 0 < ε) (hx : 0 < x)
    (horder : n ≤ NthRoot.maxSearchOrder) (hsize : NthRoot.powerBits n ε ≤ NthRoot.maxPowerBits)
    (habove : x ≤ NthRoot.start x n ^ n) (hsmall : NthRoot.start x n < ε / 32) :
    nthRoot x (-n) ε = .error .divisionByZero := by
  have hsearch : NthRoot.maxSearchOrder ≤ NthRoot.maxOrder := by decide
  have hdescend := NthRoot.descend_of_lt (by omega) hε hx.le (NthRoot.start_pos x n) habove hsmall 49
  have hroot := NthRoot.ofOrder_eq_descend hn hx horder hsize
  rw [show maxRounds = 49 + 1 from rfl, hdescend] at hroot
  refine nthRoot_of_rootOfZero ⟨hε, by omega, by omega, ?_⟩
  rwa [Int.natAbs_neg, Int.natAbs_natCast]

/-- **When a root divides by zero**: its order is negative, and the number is zero, or its root of the
opposite order is below half a grid step. -/
theorem lt_pow_of_divisionByZero (h : nthRoot x order ε = .error .divisionByZero) :
    order < 0 ∧ (x = 0 ∨ order ≠ -1 ∧ |x| < (ε / 32) ^ order.natAbs) := by
  rcases nthRoot_error_cases h with ⟨hfault, -⟩ | ⟨cause, hfault⟩ | ⟨-, hroot⟩
  · cases hfault
  · cases hfault
  · exact ⟨hroot.negative, hroot.lt_pow⟩

/-- The cube root of a negative number, with a tolerance of a hundredth. -/
theorem lt_pow_of_divisionByZero_cube :
    nthRoot (-1 / 10 ^ 402) (-3) (1 / 100) = .error .divisionByZero ∧
      |(-1 / 10 ^ 402 : ℚ)| < (1 / 100 / 32) ^ 3 := by
  have hfault : nthRoot (-1 / 10 ^ 402) (-3) (1 / 100) = .error .divisionByZero := by
    decide +kernel
  have hne : (-1 / 10 ^ 402 : ℚ) ≠ 0 := by norm_num
  exact ⟨hfault, ((lt_pow_of_divisionByZero hfault).2.resolve_left hne).2⟩

/-- **The number need not be zero**: the root of order a hundred of `1 / 2 ^ 1100` is `1 / 2048`, less
than half a step of the grid for a tolerance of a tenth, and so it has no inverse. -/
theorem divisionByZero_of_tiny_root :
    nthRoot (1 / 2 ^ 1100) (-100) (1 / 10) = .error .divisionByZero ∧ (1 / 2 ^ 1100 : ℚ) ≠ 0 := by
  have hstart : NthRoot.start (1 / 2 ^ 1100) 100 = 1 / 2 ^ 10 :=
    (NthRoot.start_of_estimate? (NthRoot.estimate?_of_nearest? (by decide +kernel))).trans
      (by decide +kernel)
  refine ⟨?_, by positivity⟩
  refine nthRoot_of_start_lt (n := 100) (by decide) (by norm_num) (by positivity) (by decide)
    (by decide +kernel) ?_ ?_
  · rw [hstart]
    decide +kernel
  · rw [hstart]
    norm_num

end RadixCalc
