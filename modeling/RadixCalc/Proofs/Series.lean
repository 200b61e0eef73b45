import Mathlib.Analysis.SpecialFunctions.Complex.Arctan
import Mathlib.Analysis.SpecialFunctions.Trigonometric.Arctan
import RadixCalc.Constant
import RadixCalc.Proofs.Digits

/-!
# The constants to their last place

The two constants are summed from terms that are all cut off. No term loses more than one unit of the
last place, and there are so few of them that the ten places computed beyond those asked for make up
for it.

* `Terms`: the terms of a series that are summed, up to the first that is cut off to zero.
* `Terms.length_le`, `Terms.abs_sub_le`: how many they are, and how far their sum is from the series.
* `eulerSeries`, `arctanSeries`: the terms that the constants are summed from.
* `cutOff`, `Terms.abs_sub_le_guard`: a sum without the places beyond those asked for, which make up
  for what the terms lose.
* `constants_near`: the constants and the partial sums of their series.
* `euler_le_exp`, `abs_archimedes_sub_pi_le`: the constants and the numbers `e` and `π`.
-/

namespace RadixCalc.Constant

open Filter Finset Topology

/-! ## Series cut off term by term -/

/-- **The terms `N / D k`, `N / D (k + 1)`, ...**, each cut off, up to the first that is zero. -/
inductive Terms (N : ℕ) (D : ℕ → ℕ) : ℕ → List ℕ → Prop
  | nil {k} (h : N < D k) : Terms N D k []
  | cons {k l} (h : D k ≤ N) : Terms N D (k + 1) l → Terms N D k (N / D k :: l)

variable {N k n i places : ℕ} {D : ℕ → ℕ} {l : List ℕ} {s : ℤ}

/-- The denominators of a series at least double from `k` on. -/
def Doubles (D : ℕ → ℕ) (k : ℕ) : Prop :=
  ∀ j, k ≤ j → 2 * D j ≤ D (j + 1)

theorem Doubles.succ (hD : Doubles D k) : Doubles D (k + 1) :=
  fun j hj => hD j (by omega)

theorem Doubles.two_pow_mul_le (hD : Doubles D k) (i : ℕ) : 2 ^ i * D k ≤ D (k + i) := by
  induction i with
  | zero => simp
  | succ i ih =>
    calc 2 ^ (i + 1) * D k = 2 * (2 ^ i * D k) := by ring
      _ ≤ 2 * D (k + i) := Nat.mul_le_mul_left 2 ih
      _ ≤ D (k + (i + 1)) := hD (k + i) (Nat.le_add_right k i)

/-- The terms `t₀ + s t₁ + s² t₂ + ...`, summed from the last one on. -/
def signedSum (s : ℤ) (l : List ℕ) : ℤ :=
  l.foldr (fun t r => t + s * r) 0

theorem signedSum_cons (s : ℤ) (t : ℕ) (l : List ℕ) :
    signedSum s (t :: l) = t + s * signedSum s l := rfl

/-- The denominators of the terms are at most `N`. -/
theorem Terms.le (h : Terms N D k l) (hi : i < l.length) : D (k + i) ≤ N := by
  induction h generalizing i with
  | nil => exact absurd hi (Nat.not_lt_zero i)
  | @cons k l hk _ ih =>
    cases i with
    | zero => exact hk
    | succ i =>
      have hle := ih (Nat.lt_of_succ_lt_succ hi)
      rwa [Nat.add_right_comm] at hle

/-- **There are no more terms than `N` has binary digits.** -/
theorem Terms.length_le (h : Terms N D k l) (hD : Doubles D k) (hpos : 0 < D k) {b : ℕ}
    (hN : N < 2 ^ b) : l.length ≤ b := by
  by_contra! hlong
  have hterm : D (k + b) ≤ N := h.le hlong
  have hpow : 2 ^ b ≤ 2 ^ b * D k := Nat.le_mul_of_pos_right _ hpos
  have hdouble := hD.two_pow_mul_le b
  omega

theorem sum_inv_two_pow_le (n : ℕ) : ∑ i ∈ range n, ((2 : ℚ) ^ i)⁻¹ ≤ 2 := by
  have hsum : ∑ i ∈ range n, ((2 : ℚ) ^ i)⁻¹ = 2 - 2 * (2 ^ n)⁻¹ := by
    induction n with
    | zero => simp
    | succ n ih =>
      rw [sum_range_succ, ih, pow_succ, mul_inv]
      ring
  have hpos : (0 : ℚ) < (2 ^ n)⁻¹ := by positivity
  linarith

/-- The terms that are cut off to zero are less than two in all. -/
theorem tail_le_two (hD : Doubles D k) (hN : N < D k) (n : ℕ) :
    ∑ i ∈ range n, (N / D (k + i) : ℚ) ≤ 2 := by
  refine (sum_le_sum fun i _ => ?_).trans (sum_inv_two_pow_le n)
  have hle : N * 2 ^ i ≤ D (k + i) :=
    (Nat.mul_le_mul_right _ hN.le).trans ((Nat.mul_comm _ _).trans_le (hD.two_pow_mul_le i))
  have hpos : 0 < D (k + i) :=
    (Nat.mul_pos (Nat.pow_pos two_pos) (Nat.zero_lt_of_lt hN)).trans_le (hD.two_pow_mul_le i)
  rw [div_le_iff₀ (by exact_mod_cast hpos), ← div_eq_inv_mul, le_div_iff₀ (by positivity)]
  exact_mod_cast hle

/-- The signs of a series do not change the size of its terms. -/
theorem abs_series_le (hs : |s| = 1) (n : ℕ) :
    |∑ i ∈ range n, (s : ℚ) ^ i * (N / D (k + i))| ≤ ∑ i ∈ range n, (N / D (k + i) : ℚ) := by
  have hs' : |(s : ℚ)| = 1 := by exact_mod_cast hs
  refine (abs_sum_le_sum_abs _ _).trans_eq (sum_congr rfl fun i _ => ?_)
  rw [abs_mul, abs_pow, hs', one_pow, one_mul, abs_of_nonneg (by positivity)]

/-- A series is its first term and the rest of the series. -/
theorem series_succ (s : ℤ) (n : ℕ) :
    ∑ i ∈ range (n + 1), (s : ℚ) ^ i * (N / D (k + i)) =
      N / D k + s * ∑ i ∈ range n, (s : ℚ) ^ i * (N / D (k + 1 + i)) := by
  rw [sum_range_succ', mul_sum, pow_zero, one_mul, add_zero, add_comm]
  refine congrArg _ (sum_congr rfl fun i _ => ?_)
  rw [pow_succ', mul_assoc, Nat.add_right_comm k 1 i, Nat.add_assoc]

/-- **Each term of a series loses less than one**, and those that are left out are less than two in
all. -/
theorem Terms.abs_sub_le (h : Terms N D k l) (hD : Doubles D k) (hs : |s| = 1)
    (hn : l.length ≤ n) :
    |∑ i ∈ range n, (s : ℚ) ^ i * (N / D (k + i)) - signedSum s l| ≤ l.length + 2 := by
  induction h generalizing n with
  | @nil k hN =>
    have hsum := (abs_series_le hs n).trans (tail_le_two hD hN n)
    simpa [signedSum] using hsum
  | @cons k l _ _ ih =>
    cases n with
    | zero => exact absurd hn (Nat.not_succ_le_zero _)
    | succ n =>
      have hrest := ih hD.succ (Nat.le_of_succ_le_succ hn)
      have hs' : |(s : ℚ)| = 1 := by exact_mod_cast hs
      obtain ⟨hle, hlt⟩ := natCast_div_bounds N (d := D k)
      have hfirst : |(N / D k : ℚ) - (N / D k : ℕ)| ≤ 1 := abs_le.2 ⟨by linarith, by linarith⟩
      rw [series_succ, signedSum_cons, Int.cast_add, Int.cast_mul, Int.cast_natCast]
      set rest := ∑ i ∈ range n, (s : ℚ) ^ i * (N / D (k + 1 + i)) with hr
      calc |(N / D k : ℚ) + s * rest - ((N / D k : ℕ) + s * signedSum s l)|
          = |((N / D k : ℚ) - (N / D k : ℕ)) + s * (rest - signedSum s l)| := by ring_nf
        _ ≤ |(N / D k : ℚ) - (N / D k : ℕ)| + |s * (rest - signedSum s l)| := abs_add_le _ _
        _ ≤ 1 + (l.length + 2) := by
          rw [abs_mul, hs', one_mul]
          exact add_le_add hfirst hrest
        _ = (l.length + 1 : ℕ) + 2 := by
          push_cast
          ring

/-- Terms that are cut off and added are at most the series. -/
theorem Terms.signedSum_le (h : Terms N D k l) (hn : l.length ≤ n) :
    (signedSum 1 l : ℚ) ≤ ∑ i ∈ range n, (N / D (k + i) : ℚ) := by
  induction h generalizing n with
  | nil => exact (Int.cast_zero (R := ℚ)).trans_le (sum_nonneg fun i _ => by positivity)
  | @cons k l _ _ ih =>
    cases n with
    | zero => exact absurd hn (Nat.not_succ_le_zero _)
    | succ n =>
      have hfirst := (natCast_div_bounds N (d := D k)).1
      have hsum := series_succ (N := N) (D := D) (k := k) 1 n
      simp only [Int.cast_one, one_pow, one_mul] at hsum
      rw [hsum, signedSum_cons, one_mul, Int.cast_add, Int.cast_natCast]
      exact add_le_add hfirst (ih (Nat.le_of_succ_le_succ hn))

/-! ## The terms of the constants -/

/-- The terms that `eulerTail` sums. -/
def eulerTerms (k t : ℕ) : List ℕ :=
  if _h : t = 0 then [] else t :: eulerTerms (k + 1) (t / (k + 2))
termination_by t
decreasing_by exact Nat.div_lt_self (by omega) (by omega)

/-- The terms that `arctanSum` adds and takes off in turn. -/
def arctanTerms (q : ℕ) (hq : 1 < q) (k s : ℕ) : List ℕ :=
  if _h : s / (2 * k + 1) = 0 then []
  else s / (2 * k + 1) :: arctanTerms q hq (k + 1) (s / (q * q))
termination_by s
decreasing_by
  refine Nat.div_lt_self ?_ (Nat.lt_of_lt_of_le hq (Nat.le_mul_of_pos_left q (by omega)))
  exact Nat.pos_of_ne_zero fun hs => _h (by simp [hs])

theorem eulerTail_eq_signedSum (k t : ℕ) : (eulerTail k t : ℤ) = signedSum 1 (eulerTerms k t) := by
  fun_induction eulerTail k t with
  | case1 k => simp [eulerTerms, signedSum]
  | case2 k t ht ih =>
    rw [eulerTerms, dif_neg ht, signedSum_cons, one_mul, ← ih, Nat.cast_add]

theorem arctanSum_eq_signedSum {q : ℕ} (hq : 1 < q) (k s : ℕ) :
    arctanSum q hq k s = signedSum (-1) (arctanTerms q hq k s) := by
  fun_induction arctanSum q hq k s with
  | case1 k s hs => simp [arctanTerms, signedSum, hs]
  | case2 k s hs ih =>
    rw [arctanTerms, dif_neg hs, signedSum_cons, neg_one_mul, ← ih, sub_eq_add_neg]

/-- The denominators of the series of the arctangent of `1 / q`. -/
def arctanDenom (q k : ℕ) : ℕ := q ^ (2 * k + 1) * (2 * k + 1)

/-- Dividing a term that is already cut off loses nothing more. -/
theorem terms_eulerTerms {t : ℕ} (ht : t = N / (k + 1).factorial) :
    Terms N Nat.factorial (k + 1) (eulerTerms k t) := by
  fun_induction eulerTerms k t with
  | case1 k => exact .nil ((Nat.div_eq_zero_iff_lt (Nat.factorial_pos _)).1 ht.symm)
  | case2 k t hne ih =>
    have hnext : t / (k + 2) = N / (k + 2).factorial := by
      rw [ht, Nat.div_div_eq_div_mul, Nat.factorial_succ (k + 1), Nat.mul_comm]
    subst ht
    have hle : (k + 1).factorial ≤ N := by
      by_contra! hlt
      exact hne (Nat.div_eq_of_lt hlt)
    exact .cons hle (ih hnext)

theorem terms_arctanTerms {q : ℕ} (hq : 1 < q) {s : ℕ} (hs : s = N / q ^ (2 * k + 1)) :
    Terms N (arctanDenom q) k (arctanTerms q hq k s) := by
  have hpos (k : ℕ) : 0 < arctanDenom q k := by unfold arctanDenom; positivity
  fun_induction arctanTerms q hq k s with
  | case1 k s hzero =>
    rw [hs, Nat.div_div_eq_div_mul] at hzero
    exact .nil ((Nat.div_eq_zero_iff_lt (hpos k)).1 hzero)
  | case2 k s hne ih =>
    have hnext : s / (q * q) = N / q ^ (2 * (k + 1) + 1) := by
      rw [hs, Nat.div_div_eq_div_mul]
      ring_nf
    have hterm : s / (2 * k + 1) = N / arctanDenom q k := by
      rw [hs, Nat.div_div_eq_div_mul, arctanDenom]
    rw [hterm] at hne ⊢
    have hle : arctanDenom q k ≤ N := by
      by_contra! hlt
      exact hne (Nat.div_eq_of_lt hlt)
    exact .cons hle (ih hnext)

theorem doubles_factorial : Doubles Nat.factorial 1 := by
  intro j hj
  rw [Nat.factorial_succ]
  exact Nat.mul_le_mul_right _ (by omega)

theorem doubles_arctanDenom {q : ℕ} (hq : 1 < q) : Doubles (arctanDenom q) 0 := by
  intro j _
  unfold arctanDenom
  calc 2 * (q ^ (2 * j + 1) * (2 * j + 1))
      ≤ q * q * (q ^ (2 * j + 1) * (2 * j + 1)) := by
        refine Nat.mul_le_mul_right _ ?_
        exact hq.trans_le (Nat.le_mul_of_pos_left q (by omega))
    _ = q ^ (2 * (j + 1) + 1) * (2 * j + 1) := by ring
    _ ≤ q ^ (2 * (j + 1) + 1) * (2 * (j + 1) + 1) := Nat.mul_le_mul_left _ (by omega)

/-! ## The constants -/

/-- A sum without the places beyond those that are asked for. -/
def cutOff (S : ℤ) (places : ℕ) : ℚ :=
  mkRat (S / powerOfTen guardPlaces) (powerOfTen places)

theorem cast_powerOfTen (n : ℕ) : (powerOfTen n : ℚ) = 10 ^ n := by
  unfold powerOfTen
  exact_mod_cast rfl

/-- **A sum that is cut off**, counted in the places that were summed, loses less than one of the last
place that is left. -/
theorem cutOff_bounds (S : ℤ) (places : ℕ) :
    cutOff S places * 10 ^ (places + guardPlaces) ≤ S ∧
      S < cutOff S places * 10 ^ (places + guardPlaces) + 10 ^ guardPlaces := by
  have hguard : (0 : ℤ) < powerOfTen guardPlaces := by decide
  have hcut : cutOff S places * 10 ^ (places + guardPlaces) =
      ((S / powerOfTen guardPlaces : ℤ) : ℚ) * 10 ^ guardPlaces := by
    rw [cutOff, Rat.mkRat_eq_div, cast_powerOfTen, pow_add]
    field_simp
  have hle : S / powerOfTen guardPlaces * powerOfTen guardPlaces ≤ S :=
    Int.ediv_mul_le S hguard.ne'
  have hlt : S < (S / powerOfTen guardPlaces + 1) * powerOfTen guardPlaces :=
    Int.lt_ediv_add_one_mul_self S hguard
  rw [hcut, ← cast_powerOfTen, ← add_one_mul]
  exact ⟨by exact_mod_cast hle, by exact_mod_cast hlt⟩

/-- A number near a sum, counted in the places that were summed, is near the sum that is cut off. -/
theorem abs_cutOff_sub_lt {S : ℤ} {x : ℚ}
    (h : |x * 10 ^ (places + guardPlaces) - S| ≤ 10 ^ guardPlaces) :
    |cutOff S places - x| < 2 / 10 ^ places := by
  obtain ⟨hle, hlt⟩ := cutOff_bounds S places
  obtain ⟨hlow, hhigh⟩ := abs_le.1 h
  have hpos : (0 : ℚ) < 10 ^ (places + guardPlaces) := by positivity
  have hguard : (0 : ℚ) < 10 ^ guardPlaces := by positivity
  have hscaled : |(cutOff S places - x) * 10 ^ (places + guardPlaces)| < 2 * 10 ^ guardPlaces := by
    rw [sub_mul]
    exact abs_lt.2 ⟨by linarith, by linarith⟩
  rw [abs_mul, abs_of_pos hpos, pow_add, ← mul_assoc] at hscaled
  rw [lt_div_iff₀ (by positivity)]
  exact lt_of_mul_lt_mul_right hscaled hguard.le

/-- What the terms lose in all is less than the places beyond those asked for make up for: there are
at most four terms for each place. -/
theorem Terms.abs_sub_le_guard (h : Terms (powerOfTen (places + guardPlaces)) D k l)
    (hplaces : places ≤ 10 ^ 8) (hD : Doubles D k) (hpos : 0 < D k) (hs : |s| = 1)
    (hn : l.length ≤ n) :
    |∑ i ∈ range n, (s : ℚ) ^ i * (10 ^ (places + guardPlaces) / D (k + i)) - signedSum s l| ≤
      4 * (10 ^ 8 + 10) + 2 := by
  have hbits : powerOfTen (places + guardPlaces) < 2 ^ (4 * (places + guardPlaces)) := by
    calc powerOfTen (places + guardPlaces) = 10 ^ (places + guardPlaces) := rfl
      _ < 16 ^ (places + guardPlaces) := Nat.pow_lt_pow_left (by decide) (by simp [guardPlaces])
      _ = 2 ^ (4 * (places + guardPlaces)) := by rw [Nat.pow_mul]
  have hlength := h.length_le hD hpos hbits
  have hnear := h.abs_sub_le hD hs hn
  rw [cast_powerOfTen] at hnear
  have hguard : guardPlaces = 10 := rfl
  have hcount : l.length + 2 ≤ 4 * (10 ^ 8 + 10) + 2 := by omega
  exact hnear.trans (by exact_mod_cast hcount)

/-- The terms that are summed for `e`, the first one being the whole. -/
def eulerSeries (places : ℕ) : List ℕ :=
  powerOfTen (places + guardPlaces) :: eulerTerms 0 (powerOfTen (places + guardPlaces))

/-- The terms that are summed for the arctangent of `1 / q`. -/
def arctanSeries (q : ℕ) (hq : 1 < q) (places : ℕ) : List ℕ :=
  arctanTerms q hq 0 (powerOfTen (places + guardPlaces) / q)

theorem euler_eq (places : ℕ) : euler places = cutOff (signedSum 1 (eulerSeries places)) places := by
  rw [eulerSeries, signedSum_cons, one_mul, ← eulerTail_eq_signedSum]
  unfold euler cutOff
  push_cast
  rfl

theorem archimedes_eq (places : ℕ) : archimedes places =
    cutOff (16 * signedSum (-1) (arctanSeries 5 (by decide) places) -
      4 * signedSum (-1) (arctanSeries 239 (by decide) places)) places := by
  unfold archimedes arctanInverse
  simp only [arctanSum_eq_signedSum]
  rfl

/-- The partial sum of the series of inverse factorials, up to the term of `m`. -/
def inverseFactorials (m : ℕ) : ℚ :=
  ∑ k ∈ range (m + 1), 1 / (k.factorial : ℚ)

/-- The partial sum of the series of the arctangent of `1 / q`, up to the term of `m`. -/
def arctanPartial (q m : ℕ) : ℚ :=
  ∑ k ∈ range (m + 1), (-1) ^ k / ((2 * k + 1) * (q : ℚ) ^ (2 * k + 1))

theorem inverseFactorials_mul (m : ℕ) (N : ℚ) :
    inverseFactorials m * N = N + ∑ i ∈ range m, N / ((1 + i).factorial : ℚ) := by
  unfold inverseFactorials
  rw [sum_range_succ', add_mul, sum_mul, add_comm]
  simp [Nat.add_comm, div_eq_inv_mul]

theorem arctanPartial_mul (q m : ℕ) (N : ℚ) : arctanPartial q m * N =
    ∑ i ∈ range (m + 1), ((-1 : ℤ) : ℚ) ^ i * (N / arctanDenom q (0 + i)) := by
  unfold arctanPartial arctanDenom
  rw [sum_mul]
  refine sum_congr rfl fun i _ => ?_
  rw [zero_add, div_mul_eq_mul_div, mul_div_assoc]
  push_cast
  rw [mul_comm (2 * (i : ℚ) + 1)]

/-- The sum for the arctangent and its series, counted in the places that are summed. -/
theorem abs_arctanPartial_sub_le {q : ℕ} (hq : 1 < q) (h : places ≤ 10 ^ 8) {m : ℕ}
    (hm : (arctanSeries q hq places).length ≤ m) :
    |arctanPartial q m * 10 ^ (places + guardPlaces) - signedSum (-1) (arctanSeries q hq places)| ≤
      4 * (10 ^ 8 + 10) + 2 := by
  have hterms : Terms (powerOfTen (places + guardPlaces)) (arctanDenom q) 0
      (arctanSeries q hq places) := terms_arctanTerms hq (by simp)
  rw [arctanPartial_mul]
  exact hterms.abs_sub_le_guard h (doubles_arctanDenom hq) (by unfold arctanDenom; positivity)
    (by decide) (Nat.le_succ_of_le hm)

/-- The sum for `e` and its series, counted in the places that are summed. -/
theorem eulerSeries_bounds (h : places ≤ 10 ^ 8) {m : ℕ} (hm : (eulerSeries places).length ≤ m) :
    signedSum 1 (eulerSeries places) ≤ inverseFactorials m * 10 ^ (places + guardPlaces) ∧
      |inverseFactorials m * 10 ^ (places + guardPlaces) - signedSum 1 (eulerSeries places)| ≤
        4 * (10 ^ 8 + 10) + 2 := by
  have hterms : Terms (powerOfTen (places + guardPlaces)) Nat.factorial 1
      (eulerTerms 0 (powerOfTen (places + guardPlaces))) := terms_eulerTerms (by simp)
  have hm : (eulerTerms 0 (powerOfTen (places + guardPlaces))).length ≤ m := Nat.le_of_succ_le hm
  have hle := hterms.signedSum_le hm
  have hnear := hterms.abs_sub_le_guard h doubles_factorial (by decide) (s := 1) (by decide) hm
  simp only [Int.cast_one, one_pow, one_mul] at hnear
  rw [cast_powerOfTen] at hle
  -- the first term is the whole and loses nothing
  rw [eulerSeries, signedSum_cons, one_mul, Int.cast_add, Int.cast_natCast, inverseFactorials_mul,
    cast_powerOfTen, add_sub_add_left_eq_sub]
  exact ⟨by linarith, hnear⟩

/-- **The sum for `e`** is less than two of its last place below the partial sums. -/
theorem euler_near (h : places ≤ 10 ^ 8) {m : ℕ} (hm : (eulerSeries places).length ≤ m) :
    euler places ≤ inverseFactorials m ∧ inverseFactorials m < euler places + 2 / 10 ^ places := by
  obtain ⟨hle, hnear⟩ := eulerSeries_bounds h hm
  have hguard : (4 * (10 ^ 8 + 10) + 2 : ℚ) ≤ 10 ^ guardPlaces := by norm_num [guardPlaces]
  have hcut := (cutOff_bounds (signedSum 1 (eulerSeries places)) places).1.trans hle
  rw [euler_eq]
  refine ⟨le_of_mul_le_mul_right hcut (by positivity), ?_⟩
  linarith [(abs_lt.1 (abs_cutOff_sub_lt (hnear.trans hguard))).1]

/-- **The sum for `π`** is less than two of its last place away from what the partial sums make. -/
theorem archimedes_near (h : places ≤ 10 ^ 8) {m : ℕ}
    (hfive : (arctanSeries 5 (by decide) places).length ≤ m)
    (hlarge : (arctanSeries 239 (by decide) places).length ≤ m) :
    |archimedes places - (16 * arctanPartial 5 m - 4 * arctanPartial 239 m)| <
      2 / 10 ^ places := by
  have hguard : (20 * (4 * (10 ^ 8 + 10) + 2) : ℚ) ≤ 10 ^ guardPlaces := by norm_num [guardPlaces]
  rw [archimedes_eq]
  refine abs_cutOff_sub_lt (le_trans ?_ hguard)
  obtain ⟨hlow, hhigh⟩ := abs_le.1 (abs_arctanPartial_sub_le (by decide) h hfive)
  obtain ⟨hlow', hhigh'⟩ := abs_le.1 (abs_arctanPartial_sub_le (by decide) h hlarge)
  push_cast
  exact abs_le.2 ⟨by linarith, by linarith⟩

/-- **The constants are right to the places that are asked for**, up to a hundred million of them.
The partial sums of the inverse factorials, from as many terms on as are summed, are at least `euler`,
and less than two of its last place above it. Those of the two arctangents make a number less than two
of the last place away from `archimedes`. -/
theorem constants_near (h : places ≤ 10 ^ 8) :
    (∀ m, (eulerSeries places).length ≤ m →
      euler places ≤ inverseFactorials m ∧
        inverseFactorials m < euler places + 2 / 10 ^ places) ∧
    ∀ m, (arctanSeries 5 (by decide) places).length ≤ m →
      (arctanSeries 239 (by decide) places).length ≤ m →
      |archimedes places - (16 * arctanPartial 5 m - 4 * arctanPartial 239 m)| <
        2 / 10 ^ places :=
  ⟨fun _ hm => euler_near h hm, fun _ hfive hlarge => archimedes_near h hfive hlarge⟩

/-- Two decimals of each, from fifteen inverse factorials, eight terms of the one arctangent and two of
the other. -/
theorem constants_near_two :
    (2 ≤ 10 ^ 8 ∧ (eulerSeries 2).length = 15 ∧ (arctanSeries 5 (by decide) 2).length = 8 ∧
      (arctanSeries 239 (by decide) 2).length = 2) ∧
    euler 2 = 2.71 ∧ archimedes 2 = 3.14 ∧
    (euler 2 ≤ inverseFactorials 15 ∧ inverseFactorials 15 < euler 2 + 2 / 10 ^ 2) ∧
    |archimedes 2 - (16 * arctanPartial 5 8 - 4 * arctanPartial 239 8)| < 2 / 10 ^ 2 := by
  have heuler : (eulerSeries 2).length = 15 := by decide +kernel
  have hfive : (arctanSeries 5 (by decide) 2).length = 8 := by decide +kernel
  have hlarge : (arctanSeries 239 (by decide) 2).length = 2 := by decide +kernel
  obtain ⟨hnear, hnear'⟩ := @constants_near 2 (by norm_num)
  exact ⟨⟨by norm_num, heuler, hfive, hlarge⟩, by decide +kernel, by decide +kernel,
    hnear 15 heuler.le, hnear' 8 hfive.le (hlarge.trans_le (by norm_num))⟩

/-! ## The numbers themselves -/

theorem tendsto_inverseFactorials :
    Tendsto (fun m => (inverseFactorials m : ℝ)) atTop (𝓝 (Real.exp 1)) := by
  have hsum := NormedSpace.expSeries_div_hasSum_exp (1 : ℝ)
  rw [← Real.exp_eq_exp_ℝ] at hsum
  have hlimit := (tendsto_add_atTop_iff_nat 1).2 hsum.tendsto_sum_nat
  refine hlimit.congr fun m => ?_
  simp [inverseFactorials]

theorem tendsto_arctanPartial {q : ℕ} (hq : 1 < q) :
    Tendsto (fun m => (arctanPartial q m : ℝ)) atTop (𝓝 (Real.arctan (q : ℝ)⁻¹)) := by
  have hsmall : ‖(q : ℝ)⁻¹‖ < 1 := by
    rw [norm_inv, Real.norm_natCast]
    exact inv_lt_one_of_one_lt₀ (by exact_mod_cast hq)
  have hlimit := (tendsto_add_atTop_iff_nat 1).2 (Real.hasSum_arctan hsmall).tendsto_sum_nat
  refine hlimit.congr fun m => ?_
  simp only [arctanPartial, Rat.cast_sum]
  refine sum_congr rfl fun k _ => ?_
  push_cast
  rw [inv_pow]
  field_simp

/-- **The number `e`** is at least the constant, and at most two of its last place above it. -/
theorem euler_le_exp (h : places ≤ 10 ^ 8) :
    (euler places : ℝ) ≤ Real.exp 1 ∧ Real.exp 1 ≤ euler places + 2 / 10 ^ places := by
  constructor
  · refine ge_of_tendsto tendsto_inverseFactorials ?_
    filter_upwards [eventually_ge_atTop (eulerSeries places).length] with m hm
    exact_mod_cast (euler_near h hm).1
  · refine le_of_tendsto tendsto_inverseFactorials ?_
    filter_upwards [eventually_ge_atTop (eulerSeries places).length] with m hm
    have hle := (Rat.cast_le (K := ℝ)).2 (euler_near h hm).2.le
    push_cast at hle
    exact hle

/-- **The number `π`** is at most two of the last place away from the constant. -/
theorem abs_archimedes_sub_pi_le (h : places ≤ 10 ^ 8) :
    |(archimedes places : ℝ) - Real.pi| ≤ 2 / 10 ^ places := by
  have hmachin : 16 * Real.arctan ((5 : ℕ) : ℝ)⁻¹ - 4 * Real.arctan ((239 : ℕ) : ℝ)⁻¹ = Real.pi := by
    push_cast
    linarith [Real.four_mul_arctan_inv_5_sub_arctan_inv_239]
  have hlimit := (tendsto_const_nhds (x := (archimedes places : ℝ))).sub
    (((tendsto_arctanPartial (q := 5) (by decide)).const_mul 16).sub
      ((tendsto_arctanPartial (q := 239) (by decide)).const_mul 4))
  rw [hmachin] at hlimit
  refine le_of_tendsto hlimit.abs ?_
  filter_upwards [eventually_ge_atTop (arctanSeries 5 (by decide) places).length,
    eventually_ge_atTop (arctanSeries 239 (by decide) places).length] with m hfive hlarge
  have hle := (Rat.cast_le (K := ℝ)).2 (archimedes_near h hfive hlarge).le
  push_cast at hle
  exact hle

end RadixCalc.Constant
