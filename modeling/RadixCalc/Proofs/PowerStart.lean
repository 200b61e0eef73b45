import Mathlib.Algebra.Order.Field.Power
import RadixCalc.Proofs.Convergence
import RadixCalc.Proofs.Size

/-!
# Roots searched from a power of two

Past the range of floating point, the search for a root starts from a power of two taken from the
number of binary digits. It is above the root, by so little that a root of small order, or of few
digits, is found within two tolerances.

* `bitDifference_bounds`: a number and its binary digits.
* `startExponent_eq_ceil`, `two_zpow_startExponent_bounds`, `root_lt_two_zpow`: the power of two next
  above the root.
* `powerOfTwo_eq_iff`, `powerOfTwo_bounds`: when the search starts there, and the start and the root.
* `powerOfTwo_le_tolerance`: how many tolerances the start may be.
* `nthRoot_near_root`, `nthRoot_stops_short`: when the root is found, and one that is not.
-/

namespace RadixCalc

namespace NthRoot

variable {x ε : ℚ} {n : ℕ}

/-- A number between two powers of two, from its binary digits. -/
theorem bitDifference_bounds (hx : 0 < x) :
    x < 2 ^ (bitDifference x + 1) ∧ 2 ^ (bitDifference x + 1) < 4 * x := by
  have hnum : 0 < x.num.natAbs := Int.natAbs_pos.2 (Rat.num_pos.2 hx).ne'
  obtain ⟨hn₁, hn₂⟩ := bitLength_bounds hnum
  obtain ⟨hd₁, hd₂⟩ := bitLength_bounds x.den_pos
  set p := bitLength x.num.natAbs with hp
  set q := bitLength x.den with hq
  have hden : (0 : ℚ) < x.den := by exact_mod_cast x.den_pos
  have hquotient : x = x.num.natAbs / x.den := by
    rw [Nat.cast_natAbs, abs_of_pos (Rat.num_pos.2 hx), Rat.num_div_den]
  have hpower : (2 : ℚ) ^ (bitDifference x + 1) = 2 * 2 ^ p / 2 ^ q := by
    unfold bitDifference
    rw [zpow_add₀ (by norm_num), zpow_sub₀ (by norm_num), zpow_natCast, zpow_natCast, zpow_one]
    ring
  have hn₁' : (x.num.natAbs : ℚ) < 2 ^ p := by exact_mod_cast hn₁
  have hn₂' : (2 : ℚ) ^ p ≤ 2 * x.num.natAbs := by exact_mod_cast hn₂
  have hd₁' : (x.den : ℚ) < 2 ^ q := by exact_mod_cast hd₁
  have hd₂' : (2 : ℚ) ^ q ≤ 2 * x.den := by exact_mod_cast hd₂
  rw [hpower]
  constructor
  · calc x = x.num.natAbs / x.den := hquotient
      _ < 2 ^ p / x.den := by gcongr
      _ = 2 * 2 ^ p / (2 * x.den) := by field_simp
      _ ≤ 2 * 2 ^ p / 2 ^ q := by gcongr
  · calc (2 : ℚ) * 2 ^ p / 2 ^ q < 2 * 2 ^ p / x.den := by gcongr
      _ ≤ 2 * (2 * (x.num.natAbs : ℚ)) / x.den := by gcongr
      _ = 4 * ((x.num.natAbs : ℚ) / x.den) := by ring
      _ = 4 * x := by rw [← hquotient]

/-- The exponent of the start is rounded up. -/
theorem startExponent_bounds (hn : n ≠ 0) :
    bitDifference x + 1 ≤ startExponent x n * n ∧
      startExponent x n * n + 1 ≤ bitDifference x + 1 + n := by
  have hdiv := Int.emod_add_mul_ediv (bitDifference x + 1) n
  have hmod := Int.emod_nonneg (bitDifference x + 1) (b := (n : ℤ)) (by omega)
  have hlt := Int.emod_lt_of_pos (bitDifference x + 1) (b := (n : ℤ)) (by omega)
  unfold startExponent
  dsimp only
  split
  · rw [add_zero, mul_comm]
    omega
  · rw [add_mul, one_mul, mul_comm]
    omega

theorem startExponent_eq_ceil (hn : n ≠ 0) :
    startExponent x n = ⌈((bitDifference x + 1 : ℤ) : ℚ) / n⌉ := by
  obtain ⟨hlow, hhigh⟩ := startExponent_bounds (x := x) hn
  have hpos : (0 : ℚ) < n := by exact_mod_cast Nat.pos_of_ne_zero hn
  symm
  rw [Int.ceil_eq_iff, lt_div_iff₀ hpos, div_le_iff₀ hpos]
  constructor
  · have hlt : (startExponent x n - 1) * n < bitDifference x + 1 := by
      rw [sub_mul, one_mul]
      omega
    exact_mod_cast hlt
  · exact_mod_cast hlow

/-- **The power of two and the number**: the power is above it, and `2 ^ (n + 1)` times the number is
above the power. -/
theorem two_zpow_startExponent_bounds (hx : 0 < x) (hn : n ≠ 0) :
    x < (2 ^ startExponent x n) ^ n ∧ (2 ^ startExponent x n) ^ n < 2 ^ (n + 1) * x := by
  obtain ⟨hlow, hhigh⟩ := bitDifference_bounds hx
  obtain ⟨helow, hehigh⟩ := startExponent_bounds (x := x) hn
  rw [← zpow_natCast (2 ^ startExponent x n) n, ← zpow_mul]
  constructor
  · calc x < 2 ^ (bitDifference x + 1) := hlow
      _ ≤ 2 ^ (startExponent x n * n) := zpow_le_zpow_right₀ (by norm_num) helow
  · calc (2 : ℚ) ^ (startExponent x n * n) ≤ 2 ^ ((n : ℤ) - 1 + (bitDifference x + 1)) :=
          zpow_le_zpow_right₀ (by norm_num) (by omega)
      _ = 2 ^ n / 2 * 2 ^ (bitDifference x + 1) := by
          rw [zpow_add₀ (by norm_num), zpow_sub_one₀ (by norm_num), zpow_natCast]
          rfl
      _ < 2 ^ n / 2 * (4 * x) := by gcongr
      _ = 2 ^ (n + 1) * x := by ring

/-- A number past the range of floating point has no estimate. -/
theorem estimate?_of_nearest? (h : Double.nearest? x = none) : estimate? x n = none := by
  unfold estimate?
  rw [h]
  rfl

theorem start_of_estimate? (h : estimate? x n = none) : start x n = powerOfTwo x n := by
  unfold start
  rw [h, Option.getD_none]

/-- An exponent that the start may have. -/
def HasStartExponent (x : ℚ) (n : ℕ) : Prop :=
  -maxStartExponent - 1 ≤ startExponent x n ∧ startExponent x n ≤ maxStartExponent

theorem powerOfTwo_eq (h : HasStartExponent x n) : powerOfTwo x n = 2 ^ startExponent x n := by
  obtain ⟨hlow, hhigh⟩ := h
  unfold powerOfTwo
  dsimp only
  rw [if_neg]
  simp only [Bool.or_eq_true, decide_eq_true_eq, not_or]
  omega

/-- **The start is above the root**, by less than a factor of four: its power is `2 ^ (n + 1)` times
the number at most. -/
theorem powerOfTwo_bounds (hx : 0 < x) (hn : n ≠ 0) (h : HasStartExponent x n) :
    x ≤ powerOfTwo x n ^ n ∧ powerOfTwo x n ^ n ≤ 2 ^ (n + 1) * x := by
  obtain ⟨hlow, hhigh⟩ := two_zpow_startExponent_bounds hx hn
  rw [powerOfTwo_eq h]
  exact ⟨hlow.le, hhigh.le⟩

/-- Past the exponents that the start may have it is two, which is no such power. -/
theorem powerOfTwo_eq_iff : powerOfTwo x n = 2 ^ startExponent x n ↔ HasStartExponent x n := by
  refine ⟨fun h => ?_, powerOfTwo_eq⟩
  unfold powerOfTwo at h
  dsimp only at h
  split at h
  · have hexponent : startExponent x n = 1 :=
      zpow_right_injective₀ (by norm_num) (by norm_num) (h.symm.trans (zpow_one 2).symm)
    rw [HasStartExponent, hexponent]
    decide
  · rename_i hin
    simp only [Bool.or_eq_true, decide_eq_true_eq, not_or] at hin
    exact ⟨not_lt.1 hin.1, not_lt.1 hin.2⟩

/-- The start has such an exponent unless the number has more than two thousand million bits. -/
theorem hasStartExponent_of_ratBits (hn : 2 ≤ n) (h : ratBits x ≤ maxStartExponent) :
    HasStartExponent x n := by
  obtain ⟨hnum, hden⟩ := Numeral.ratBits_le_iff.1 h
  obtain ⟨hlow, hhigh⟩ := startExponent_bounds (x := x) (n := n) (by omega)
  unfold bitDifference at hlow hhigh
  constructor
  · by_contra hlt
    have hmul : startExponent x n * n ≤ startExponent x n * 1 :=
      mul_le_mul_of_nonpos_left (by omega) (by omega)
    omega
  · by_contra hlt
    have hmul : (startExponent x n - 1) * 2 ≤ (startExponent x n - 1) * n :=
      mul_le_mul_of_nonneg_left (by omega) (by omega)
    rw [sub_one_mul, sub_one_mul] at hmul
    have hlimit : 0 < maxStartExponent := by decide
    omega

/-- **The power of two next above the root.** Its exponent is the difference in binary digits and one,
divided by the order and rounded up. The power is above the root, and half of it is below the root of
twice the number. The search starts there unless the exponent is past those that the start may have,
which takes a very long number. -/
theorem root_lt_two_zpow (hx : 0 < x) (hn : 2 ≤ n) :
    startExponent x n =
      ⌈(((bitLength x.num.natAbs : ℤ) - bitLength x.den + 1 : ℤ) : ℚ) / n⌉ ∧
    x < (2 ^ startExponent x n) ^ n ∧ (2 ^ startExponent x n / 2) ^ n < 2 * x ∧
    (powerOfTwo x n = 2 ^ startExponent x n ↔ HasStartExponent x n) ∧
    (ratBits x ≤ maxStartExponent → powerOfTwo x n = 2 ^ startExponent x n) := by
  have hn0 : n ≠ 0 := by omega
  obtain ⟨habove, hbelow⟩ := two_zpow_startExponent_bounds hx hn0
  refine ⟨startExponent_eq_ceil hn0, habove, ?_, powerOfTwo_eq_iff,
    fun hbits => powerOfTwo_eq (hasStartExponent_of_ratBits hn hbits)⟩
  rw [div_pow, div_lt_iff₀ (by positivity)]
  exact hbelow.trans_eq (by ring)

/-- The cube root of `1 / 10 ^ 400`, which is below the range of floating point: a difference of
`- 1328` binary digits. -/
theorem root_lt_two_zpow_tiny :
    start (1 / 10 ^ 400) 3 = 2 ^ (-442 : ℤ) ∧
    (-442 : ℤ) = ⌈((-1327 : ℤ) : ℚ) / (3 : ℕ)⌉ ∧
    (1 / 10 ^ 400 : ℚ) < (2 ^ (-442 : ℤ)) ^ 3 ∧
    ((2 : ℚ) ^ (-442 : ℤ) / 2) ^ 3 < 2 * (1 / 10 ^ 400) := by
  have hestimate : estimate? (1 / 10 ^ 400) 3 = none := estimate?_of_nearest? (by decide +kernel)
  have hexponent : startExponent (1 / 10 ^ 400) 3 = -442 := by decide +kernel
  have hbits : ((bitLength (1 / 10 ^ 400 : ℚ).num.natAbs : ℤ) - bitLength (1 / 10 ^ 400 : ℚ).den + 1) =
      -1327 := by
    decide +kernel
  obtain ⟨hceil, habove, hbelow, -, hpower⟩ :=
    root_lt_two_zpow (x := 1 / 10 ^ 400) (n := 3) (by positivity) (by norm_num)
  have hstart := (start_of_estimate? hestimate).trans (hpower (by decide +kernel))
  rw [hexponent] at hceil habove hbelow hstart
  rw [hbits] at hceil
  exact ⟨hstart, hceil, habove, hbelow⟩

/-- A tolerance within the limit of sizes is not below two to the opposite of that limit. -/
theorem one_le_tolerance_mul (hn : n ≠ 0) (hε : 0 < ε) (hsize : powerBits n ε ≤ maxPowerBits) :
    1 ≤ ε * 2 ^ maxPowerBits := by
  have hstep := gridStep_pos hε
  have hbits : bitLength (gridStep ε).den ≤ maxPowerBits := by
    refine le_trans ?_ hsize
    unfold powerBits
    exact le_trans (Nat.le_add_left _ _) (Nat.le_mul_of_pos_left _ (Nat.pos_of_ne_zero hn))
  have hden : ((gridStep ε).den : ℚ) ≤ 2 ^ maxPowerBits := by
    have hlt := (bitLength_bounds (gridStep ε).den_pos).1.le
    exact_mod_cast hlt.trans (Nat.pow_le_pow_right (by omega) hbits)
  have hnum : (1 : ℚ) ≤ (gridStep ε).num := by exact_mod_cast Rat.num_pos.2 hstep
  calc 1 ≤ ((gridStep ε).num : ℚ) := hnum
    _ = gridStep ε * (gridStep ε).den := (Rat.mul_den_eq_num _).symm
    _ ≤ ε * 2 ^ maxPowerBits := by
      have hle : gridStep ε ≤ ε := by
        rw [gridStep_eq]
        linarith
      gcongr

/-- How many tolerances the start may be. -/
theorem powerOfTwo_le_tolerance (hn : n ≠ 0) (hε : 0 < ε) (hsize : powerBits n ε ≤ maxPowerBits)
    (h : HasStartExponent x n) {l : ℕ} (hl : maxStartExponent + maxPowerBits ≤ 2 ^ l) :
    powerOfTwo x n ≤ 2 ^ 2 ^ l * ε := by
  calc powerOfTwo x n = 2 ^ startExponent x n := powerOfTwo_eq h
    _ ≤ 2 ^ (maxStartExponent : ℤ) := zpow_le_zpow_right₀ (by norm_num) h.2
    _ = 2 ^ maxStartExponent * 1 := by rw [zpow_natCast, mul_one]
    _ ≤ 2 ^ maxStartExponent * (ε * 2 ^ maxPowerBits) := by
      gcongr
      exact one_le_tolerance_mul hn hε hsize
    _ = 2 ^ (maxStartExponent + maxPowerBits) * ε := by
      rw [pow_add]
      ring
    _ ≤ 2 ^ 2 ^ l * ε := by gcongr; norm_num

/-! ## From the start to the root -/

section

variable {r : ℝ} {y : ℚ}

/-- A point whose power is `2 ^ (j + 1)` times that of the root at most, and which is `2 ^ 2 ^ l`
tolerances at most: `j` rounds of the first phase are enough, and `l + 1` of the second. -/
theorem settles_of_powers (h : IsRoot x ε n r) (hfine : 33 / 16 * n * ε ≤ r) (hry : r ≤ y)
    {j l : ℕ} (hpow : y ^ n ≤ 2 ^ (j + 1) * x) (htol : y ≤ 2 ^ 2 ^ l * ε) :
    Settles x ε n r (j + l + 1) y := by
  have hr := h.pos
  have hε := h.cast_tolerance_pos
  have hn2 : (2 : ℝ) ≤ n := by exact_mod_cast h.two_le
  have htol' : (y : ℝ) ≤ 2 ^ 2 ^ l * ε := by exact_mod_cast htol
  have hpow' : (y : ℝ) ^ n ≤ 2 ^ (j + 1) * r ^ n := by
    rw [h.pow_eq]
    exact_mod_cast hpow
  refine settles_linear h hfine ?_ j (onWay_of_le h hry) hpow'
  have hpositive : (0 : ℝ) < 2 ^ 2 ^ l := by positivity
  rw [div_pow, one_pow, div_le_div_iff₀ hpositive (by positivity)]
  have hscaled : 1922 * (2 ^ 2 ^ l * (ε : ℝ)) ≤ 961 * n * (2 ^ 2 ^ l * (ε : ℝ)) := by
    gcongr
    linarith
  linarith

/-- A point above a root of small order and few tolerances. -/
theorem settles_of_order_le_five (h : IsRoot x ε n r) (hn5 : n ≤ 5) (hcoarse : r < 33 / 16 * n * ε)
    (hry : r ≤ y) (hpow : (y : ℝ) ^ n ≤ 2 ^ (n + 1) * r ^ n) : Settles x ε n r 50 y := by
  have hε := h.cast_tolerance_pos
  have hn : (n : ℝ) ≤ 5 := by exact_mod_cast hn5
  have hfour : (y : ℝ) ≤ 4 * r := by
    refine le_mul_of_pow_le h.ne_zero h.pos.le (by norm_num) ?_ hpow
    calc (2 : ℝ) ^ (n + 1) ≤ 2 ^ (2 * n) :=
          pow_le_pow_right₀ (by norm_num) (by have := h.two_le; omega)
      _ = 4 ^ n := by rw [pow_mul]; norm_num
  have hle : (y : ℝ) ≤ (49 + 1) * ε := by nlinarith
  exact settles_of_le_mul h hn5 49 (onWay_of_le h hry) hpow (by exact_mod_cast hle)

end

/-- **Roots searched from a power of two**, past the range of floating point. The start is above the
root by less than a factor of four, and the rounds settle within two tolerances of the root if the
start is within the tolerance of zero, or the order is five at most, or the root is large in
proportion to the tolerance and the order is seventeen at most or there are rounds enough. Each of
`j` rounds halves the power, and each of the others squares the distance to the root. -/
theorem nthRoot_near_root (hx : 0 < x) (hn : 2 ≤ n) (hε : 0 < ε) (horder : n ≤ maxSearchOrder)
    (hsize : powerBits n ε ≤ maxPowerBits) (hestimate : estimate? x n = none)
    (hexponent : HasStartExponent x n)
    (hrange : start x n ≤ ε ∨ n ≤ 5 ∨ (33 / 16 * n * ε) ^ n ≤ x ∧
      (n ≤ 17 ∨ ∃ j l, start x n ^ n ≤ 2 ^ (j + 1) * x ∧ start x n ≤ 2 ^ 2 ^ l * ε ∧
        j + l < maxRounds)) :
    (start x n = 2 ^ startExponent x n ∧ x ≤ start x n ^ n ∧ start x n ^ n ≤ 2 ^ (n + 1) * x) ∧
    ∃ v, nthRoot x n ε = .ok v ∧ descend x n ε maxRounds (start x n) = (v, .settled) ∧
      x ≤ (v + 2 * ε) ^ n ∧ (v - 2 * ε ≤ 0 ∨ (v - 2 * ε) ^ n ≤ x) := by
  have hn0 : n ≠ 0 := by omega
  have hstart := start_of_estimate? hestimate
  obtain ⟨habove, hbelow⟩ := powerOfTwo_bounds hx hn0 hexponent
  have htol := powerOfTwo_le_tolerance (l := 32) hn0 hε hsize hexponent (by decide)
  rw [← hstart] at habove hbelow htol
  refine ⟨⟨hstart.trans (powerOfTwo_eq hexponent), habove, hbelow⟩, ?_⟩
  obtain ⟨r, h⟩ := exists_isRoot hx hn hε
  have hry : r ≤ (start x n : ℝ) := by
    refine le_of_pow_le_pow_left₀ hn0 (by exact_mod_cast (start_pos x n).le) ?_
    rw [h.pow_eq]
    exact_mod_cast habove
  have hrounds : maxRounds = 50 := rfl
  have hsettles : Settles x ε n r maxRounds (start x n) := by
    rcases hrange with hsmall | hn5 | ⟨hlarge, hpowers⟩
    · exact (settles_of_le h hry hsmall).mono (by omega)
    · rcases lt_or_ge r (33 / 16 * n * ε) with hcoarse | hfine
      · refine settles_of_order_le_five h hn5 hcoarse hry ?_
        rw [h.pow_eq]
        exact_mod_cast hbelow
      · exact (settles_of_powers h hfine hry hbelow htol).mono (by omega)
    · have hfine : 33 / 16 * n * ε ≤ r := by
        have hcast : (((33 / 16 * n * ε) ^ n : ℚ) : ℝ) ≤ x := Rat.cast_le.2 hlarge
        push_cast at hcast
        exact le_of_pow_le_pow_left₀ hn0 h.pos.le (hcast.trans_eq h.pow_eq.symm)
      rcases hpowers with hn17 | ⟨j, l, hj, hl, hjl⟩
      · exact (settles_of_powers h hfine hry hbelow htol).mono (by omega)
      · exact (settles_of_powers h hfine hry hj hl).mono (by omega)
  obtain ⟨hexit, hnear⟩ := hsettles maxRounds le_rfl
  refine ⟨_, nthRoot_eq_descend hn hε hx horder hsize, Prod.ext rfl hexit, h.pow_bounds hnear⟩

/-- The twentieth root of `2 ^ 1100` to a tenth, from `2 ^ 56`: the power of the start is `2 ^ 20`
times the number, and the start is `2 ^ 64` tolerances at most. -/
theorem nthRoot_of_power_near_root :
    (2 : ℚ) ^ 1100 ≤ start (2 ^ 1100) 20 ^ 20 ∧
    ∃ v, nthRoot (2 ^ 1100) (20 : ℕ) (1 / 10) = .ok v ∧
      descend (2 ^ 1100) 20 (1 / 10) maxRounds (start (2 ^ 1100) 20) = (v, .settled) ∧
      2 ^ 1100 ≤ (v + 2 * (1 / 10)) ^ 20 ∧
      (v - 2 * (1 / 10) ≤ 0 ∨ (v - 2 * (1 / 10)) ^ 20 ≤ 2 ^ 1100) := by
  have hestimate : estimate? (2 ^ 1100) 20 = none := estimate?_of_nearest? (by decide +kernel)
  have hstart : start (2 ^ 1100) 20 = 2 ^ 56 :=
    (start_of_estimate? hestimate).trans (by decide +kernel)
  have hexponent : HasStartExponent (2 ^ 1100) 20 := by
    unfold HasStartExponent
    decide +kernel
  have h := nthRoot_near_root (x := 2 ^ 1100) (n := 20) (ε := 1 / 10) (by positivity) (by norm_num)
    (by norm_num) (by decide) (by decide +kernel) hestimate hexponent
    (Or.inr (Or.inr ⟨by decide +kernel, Or.inr ⟨19, 6, by rw [hstart]; decide +kernel,
      by rw [hstart]; decide +kernel, by decide⟩⟩))
  exact ⟨h.1.2.1, h.2⟩

/-- **The rounds do not always settle**: the hundredth root of `10 ^ 700` is `10 ^ 7`, and the fifty
rounds from the power of two above it end more than 160000 too high. -/
theorem nthRoot_stops_short :
    estimate? (10 ^ 700) 100 = none ∧ HasStartExponent (10 ^ 700) 100 ∧ 100 ≤ maxSearchOrder ∧
    powerBits 100 (1 / 10 ^ 10) ≤ maxPowerBits ∧
    descend (10 ^ 700) 100 (1 / 10 ^ 10) maxRounds (start (10 ^ 700) 100) =
      (1626109436670670269 / 160000000000, .capped) ∧
    nthRoot (10 ^ 700) (100 : ℕ) (1 / 10 ^ 10) = .ok (1626109436670670269 / 160000000000) ∧
    ¬ ((1626109436670670269 / 160000000000 : ℚ) - 2 * (1 / 10 ^ 10) ≤ 0 ∨
      ((1626109436670670269 / 160000000000 : ℚ) - 2 * (1 / 10 ^ 10)) ^ 100 ≤ 10 ^ 700) := by
  have hestimate : estimate? (10 ^ 700) 100 = none := estimate?_of_nearest? (by decide +kernel)
  have hexponent : HasStartExponent (10 ^ 700) 100 := by
    unfold HasStartExponent
    decide +kernel
  have hsize : powerBits 100 (1 / 10 ^ 10) ≤ maxPowerBits := by decide +kernel
  have hdescend : descend (10 ^ 700) 100 (1 / 10 ^ 10) maxRounds (start (10 ^ 700) 100) =
      (1626109436670670269 / 160000000000, .capped) := by
    rw [start_of_estimate? hestimate]
    decide +kernel
  have hroot := nthRoot_eq_descend (x := 10 ^ 700) (n := 100) (ε := 1 / 10 ^ 10) (by norm_num)
    (by positivity) (by positivity) (by decide) hsize
  rw [hdescend] at hroot
  exact ⟨hestimate, hexponent, by decide, hsize, hdescend, hroot, by decide +kernel⟩

end NthRoot

end RadixCalc
