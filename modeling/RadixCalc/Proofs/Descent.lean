import RadixCalc.Proofs.Tangent

/-!
# How near the rounds come to a root

What the rounds towards a root return, from any start above zero.

* `le_improve_pow`: no round ends below the root by more than half a grid step.
* `sub_pow_le_of_settled`: a round no longer than the tolerance ends above the root by `n`
  tolerances and a little at most.
* `descend_induction`: what holds of a last round holds of all rounds.
* `Approaches`, `approaches_descend`: what is known of every value returned.
* `descend_near_root`: the same from any start, and what the root function makes of it.
-/

namespace RadixCalc.NthRoot

variable {x ε y : ℚ} {n : ℕ}

/-! ## One round -/

/-- **No round ends below the root** by more than half a grid step. -/
theorem le_improve_pow (hn : n ≠ 0) (hε : 0 < ε) (hx : 0 ≤ x) (hy : 0 < y) :
    x ≤ (improve x n ε y + ε / 32) ^ n := by
  have hround := (abs_le.1 (abs_improve_sub_tangent_le (x := x) (y := y) hn hε)).1
  calc x ≤ tangent x n y ^ n := le_tangent_pow hn hx hy
    _ ≤ (improve x n ε y + ε / 32) ^ n :=
      pow_le_pow_left₀ (tangent_nonneg hn hx hy) (by linarith) n

/-- A round that ends at zero is no longer than the tolerance: the tangent takes away half of `y` at
most, and zero is within half a grid step of it. -/
theorem improve_pos_of_lt (hn : 2 ≤ n) (hε : 0 < ε) (hx : 0 ≤ x) (hy : 0 < y)
    (hfar : ε < |improve x n ε y - y|) : 0 < improve x n ε y := by
  have hn0 : n ≠ 0 := by omega
  have hn2 : (2 : ℚ) ≤ n := by exact_mod_cast hn
  refine lt_of_le_of_ne (improve_nonneg hn0 hε hx hy) fun hzero => ?_
  have hround := (abs_le.1 (abs_improve_sub_tangent_le (x := x) (y := y) hn0 hε)).1
  have hhalf : y / n ≤ y / 2 := div_le_div_of_nonneg_left hy.le (by norm_num) hn2
  have htangent := mul_le_tangent hn0 hx hy
  rw [← hzero, zero_sub, abs_neg, abs_of_pos hy] at hfar
  rw [← hzero] at hround
  linarith

/-- `x / y ^ (n - 1)` is not above the root if `y` is not below it. -/
theorem quotient_pow_le (hn : n ≠ 0) (hx : 0 ≤ x) (hy : 0 < y) (h : x ≤ y ^ n) :
    (y * (x / y ^ n)) ^ n ≤ x := by
  have hquotient : x / y ^ n ≤ 1 := (div_le_one (by positivity)).2 h
  have hnonneg : 0 ≤ x / y ^ n := by positivity
  calc (y * (x / y ^ n)) ^ n = x * (x / y ^ n) ^ (n - 1) := by
        rw [mul_pow, ← pow_sub_one_mul hn (x / y ^ n), ← mul_assoc, mul_right_comm]
        congr 1
        field_simp
    _ ≤ x * 1 := mul_le_mul_of_nonneg_left (pow_le_one₀ hnonneg hquotient) hx
    _ = x := mul_one x

/-- **A round no longer than the tolerance ends near the root**: above it by `n` tolerances at most,
and `n` times half a grid step. -/
theorem sub_pow_le_of_settled (hn : n ≠ 0) (hε : 0 < ε) (hx : 0 ≤ x) (hy : 0 < y)
    (hnear : |improve x n ε y - y| ≤ ε) :
    improve x n ε y - 33 / 32 * n * ε ≤ 0 ∨ (improve x n ε y - 33 / 32 * n * ε) ^ n ≤ x := by
  have hn1 : (1 : ℚ) ≤ n := by exact_mod_cast Nat.one_le_iff_ne_zero.2 hn
  obtain ⟨hdown, hup⟩ := abs_le.1 hnear
  set z := improve x n ε y with hz
  refine or_iff_not_imp_left.2 fun hpos => ?_
  rcases lt_or_ge (y ^ n) x with hbelow | habove
  · -- the point is within the tolerance of `y`, which is below the root
    have hle : z - 33 / 32 * n * ε ≤ y := by nlinarith
    exact (pow_le_pow_left₀ (by linarith) hle n).trans hbelow.le
  · have hround := (abs_le.1 (abs_improve_sub_tangent_le (x := x) (y := y) hn hε)).2
    have hway := mul_sub_tangent (x := x) hn hy.ne'
    have hle : z - 33 / 32 * n * ε ≤ y * (x / y ^ n) := by
      have h₁ : 0 ≤ (n : ℚ) * (ε / 32 - (z - tangent x n y)) :=
        mul_nonneg (by linarith) (by linarith)
      have h₂ : 0 ≤ ((n : ℚ) - 1) * (z - y + ε) := mul_nonneg (by linarith) (by linarith)
      nlinarith
    exact (pow_le_pow_left₀ (by linarith) hle n).trans (quotient_pow_le hn hx hy habove)

/-! ## All rounds -/

/-- **What holds of a last round holds of all rounds**, by induction on their number. The last one is
no longer than the tolerance, or there is no other. Every round but the last ends above zero, so no
power vanishes. -/
theorem descend_induction {P : ℚ × Exit → Prop} (hn : 2 ≤ n) (hε : 0 < ε) (hx : 0 ≤ x)
    (settled : ∀ {y : ℚ}, 0 < y → |improve x n ε y - y| ≤ ε → P (improve x n ε y, .settled))
    (capped : ∀ {y : ℚ}, 0 < y → P (improve x n ε y, .capped)) (rounds : ℕ) :
    ∀ {y : ℚ}, 0 < y → P (descend x n ε (rounds + 1) y) := by
  induction rounds with
  | zero =>
    intro y hy
    rw [descend_succ hy]
    split
    · rename_i hnear
      exact settled hy hnear
    · exact capped hy
  | succ rounds ih =>
    intro y hy
    rw [descend_succ hy]
    split
    · rename_i hnear
      exact settled hy hnear
    · rename_i hfar
      exact ih (improve_pos_of_lt hn hε hx hy (not_le.1 hfar))

/-- What is known of a value that the rounds return and of the way they have ended. -/
structure Approaches (x : ℚ) (n : ℕ) (ε : ℚ) (r : ℚ × Exit) : Prop where
  not_vanished : r.2 ≠ .vanished
  nonneg : 0 ≤ r.1
  le_pow : x ≤ (r.1 + ε / 32) ^ n
  pow_le : r.2 = .settled → r.1 - 33 / 32 * n * ε ≤ 0 ∨ (r.1 - 33 / 32 * n * ε) ^ n ≤ x

/-- **What the rounds return.** -/
theorem approaches_descend (hn : 2 ≤ n) (hε : 0 < ε) (hx : 0 ≤ x) (rounds : ℕ) (hy : 0 < y) :
    Approaches x n ε (descend x n ε (rounds + 1) y) := by
  have hn0 : n ≠ 0 := by omega
  refine descend_induction hn hε hx (fun {z} hz hnear => ?_) (fun {z} hz => ?_) rounds hy
  · exact ⟨nofun, improve_nonneg hn0 hε hx hz, le_improve_pow hn0 hε hx hz,
      fun _ => sub_pow_le_of_settled hn0 hε hx hz hnear⟩
  · exact ⟨nofun, improve_nonneg hn0 hε hx hz, le_improve_pow hn0 hε hx hz, nofun⟩

/-! ## The start -/

theorem toRat?_pos {value : Float} {q : ℚ} (h : Double.toRat? value = some q) : 0 < q := by
  unfold Double.toRat? at h
  dsimp only at h
  split at h
  · cases h
  rename_i hbits
  simp only [Bool.or_eq_true, decide_eq_true_eq, not_or] at hbits
  split at h
  · rename_i hexponent
    cases h
    -- no exponent, so the bits are those of the fraction
    have hfraction : 0 < value.toBits.toNat % Double.hiddenBit := by
      have hsmall := Nat.mod_eq_of_lt
        (Nat.div_eq_zero_iff_lt (by decide : 0 < Double.hiddenBit) |>.1 hexponent)
      omega
    have hcast : (0 : ℚ) < (value.toBits.toNat % Double.hiddenBit : ℕ) := by
      exact_mod_cast hfraction
    exact mul_pos hcast (Rat.zpow_pos (by norm_num))
  · cases h
    have hcast : (0 : ℚ) < (Double.hiddenBit + value.toBits.toNat % Double.hiddenBit : ℕ) := by
      exact_mod_cast Nat.add_pos_left (by decide) _
    exact mul_pos hcast (Rat.zpow_pos (by norm_num))

theorem powerOfTwo_pos (x : ℚ) (n : ℕ) : 0 < powerOfTwo x n := by
  unfold powerOfTwo
  dsimp only
  split
  · norm_num
  · exact Rat.zpow_pos (by norm_num)

/-- The search starts above zero. -/
theorem start_pos (x : ℚ) (n : ℕ) : 0 < start x n := by
  unfold start
  cases hestimate : estimate? x n with
  | none => exact powerOfTwo_pos x n
  | some q =>
    unfold estimate? at hestimate
    obtain ⟨m, -, h⟩ := Option.bind_eq_some_iff.1 hestimate
    exact toRat?_pos h

/-- The root of a positive number of an order within the limits is what the rounds return. -/
theorem ofOrder_eq_descend (hn : 2 ≤ n) (hx : 0 < x) (horder : n ≤ maxSearchOrder)
    (hsize : powerBits n ε ≤ maxPowerBits) :
    ofOrder x n ε = .ok (descend x n ε maxRounds (start x n)).1 := by
  have hlimits : ¬ (decide (maxSearchOrder < n) || decide (maxPowerBits < powerBits n ε)) = true := by
    simp only [Bool.or_eq_true, decide_eq_true_eq, not_or]
    omega
  have hpositive : ofPositive x n ε = .ok (descend x n ε maxRounds (start x n)).1 := by
    unfold ofPositive
    rw [if_neg hlimits]
  have hone : ¬ (decide (x = 0) || decide (n = 1)) = true := by
    simp only [Bool.or_eq_true, decide_eq_true_eq, not_or]
    exact ⟨hx.ne', by omega⟩
  unfold ofOrder
  rw [if_neg hone, if_neg (not_lt.2 hx.le), hpositive]

theorem nthRoot_eq_descend (hn : 2 ≤ n) (hε : 0 < ε) (hx : 0 < x) (horder : n ≤ maxSearchOrder)
    (hsize : powerBits n ε ≤ maxPowerBits) :
    nthRoot x n ε = .ok (descend x n ε maxRounds (start x n)).1 := by
  unfold nthRoot
  rw [if_neg (not_le.2 hε), if_neg (by omega), if_neg (by omega), Int.natAbs_natCast,
    ofOrder_eq_descend hn hx horder hsize]

/-- **The rounds come near the root whatever the start.** No power on the way is zero; the value
returned is not negative and not below the root by more than half a grid step; and if the last
round was no longer than the tolerance, the value is above the root by 33/32 of `n` tolerances at
most. The root of an order within the limits is such a value. -/
theorem descend_near_root (hx : 0 < x) (hn : 2 ≤ n) (hε : 0 < ε) :
    (∀ y, 0 < y →
      (descend x n ε maxRounds y).2 ≠ .vanished ∧
      0 ≤ (descend x n ε maxRounds y).1 ∧
      x ≤ ((descend x n ε maxRounds y).1 + ε / 32) ^ n ∧
      ((descend x n ε maxRounds y).2 = .settled →
        (descend x n ε maxRounds y).1 - 33 / 32 * n * ε ≤ 0 ∨
        ((descend x n ε maxRounds y).1 - 33 / 32 * n * ε) ^ n ≤ x)) ∧
    (n ≤ maxSearchOrder → powerBits n ε ≤ maxPowerBits →
      0 < start x n ∧ nthRoot x n ε = .ok (descend x n ε maxRounds (start x n)).1) := by
  refine ⟨fun y hy => ?_, fun horder hsize =>
    ⟨start_pos x n, nthRoot_eq_descend hn hε hx horder hsize⟩⟩
  have h := approaches_descend hn hε hx.le 49 hy
  exact ⟨h.not_vanished, h.nonneg, h.le_pow, h.pow_le⟩

/-- The cube root of two to a tolerance of a hundredth, from a start a thousand times too far. -/
theorem descend_two_from_afar :
    descend 2 3 (1 / 100) maxRounds 1000 = (63 / 50, .settled) ∧
    (2 : ℚ) ≤ (63 / 50 + 1 / 100 / 32) ^ 3 ∧
    ((63 / 50 : ℚ) - 33 / 32 * (3 : ℕ) * (1 / 100) ≤ 0 ∨
      ((63 / 50 : ℚ) - 33 / 32 * (3 : ℕ) * (1 / 100)) ^ 3 ≤ 2) ∧
    3 ≤ maxSearchOrder ∧ powerBits 3 (1 / 100) ≤ maxPowerBits ∧
    nthRoot 2 3 (1 / 100) = .ok (descend 2 3 (1 / 100) maxRounds (start 2 3)).1 := by
  have hrun : descend 2 3 (1 / 100) maxRounds 1000 = (63 / 50, .settled) := by decide +kernel
  have hsize : powerBits 3 (1 / 100) ≤ maxPowerBits := by decide +kernel
  have h := descend_near_root (x := 2) (n := 3) (ε := 1 / 100) (by norm_num) (by norm_num)
    (by norm_num)
  have hnear := h.1 1000 (by norm_num)
  rw [hrun] at hnear
  exact ⟨hrun, hnear.2.2.1, hnear.2.2.2 rfl, by decide, hsize, (h.2 (by decide) hsize).2⟩

end RadixCalc.NthRoot
