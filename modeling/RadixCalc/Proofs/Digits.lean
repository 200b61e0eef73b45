import Mathlib.Algebra.Order.Floor.Semifield
import Mathlib.Data.Rat.Floor
import Mathlib.Tactic.FieldSimp
import Mathlib.Tactic.Linarith
import Mathlib.Tactic.LinearCombination
import Mathlib.Tactic.Positivity
import Mathlib.Tactic.Ring
import RadixCalc.Numeral.Expansion

/-!
# The digits of a quotient

Horner's rule undoes both ways of finding digits: cutting a natural number in an integer radix, and
taking the largest digit that fits in any radix.

* `Expansion.horner_append`, `horner_cons`, `horner_leftpad`, `horner_dropWhile`: Horner's rule on
  longer sequences of digits.
* `horner_digits`, `lt_of_mem_digits`: the digits of a natural number.
* `Truncates`: digits of the radix that leave less than one of the last place.
* `lt_pow_leadingExponent`, `pow_leadingExponent_le`, `isGreatest_leadingExponent`: the leading place
  of a number.
* `greedyFrom_succ`, `truncates_greedyFrom`: the digits from a place downwards.
* `truncates_quotientDigits`: the digits of a quotient.
-/

namespace RadixCalc

variable {β : Radix}

namespace Radix

theorem one_lt_value : 1 < β.value := lt_of_lt_of_le (by norm_num) β.two_le

theorem value_pos : 0 < β.value := zero_lt_one.trans one_lt_value

/-- An integer radix is two at least. -/
theorem two_le_of_value {b : ℕ} (hb : β.value = b) : 2 ≤ b := by
  exact_mod_cast hb ▸ β.two_le

theorem numer_eq : (β.numer : ℚ) = β.value * β.denom := by
  have hnum : (β.numer : ℤ) = β.value.num := Int.toNat_of_nonneg (Rat.num_nonneg.2 β.value_pos.le)
  calc (β.numer : ℚ) = (β.value.num : ℚ) := by exact_mod_cast hnum
    _ = β.value * β.denom := (Rat.mul_den_eq_num β.value).symm

/-- A natural number is a digit if it is below the radix. -/
theorem lt_digitCount {d : ℕ} (h : (d : ℚ) < β.value) : d < β.digitCount := by
  have hceil : (d : ℤ) < β.value.ceil := by
    have hlt : (d : ℚ) < (β.value.ceil : ℚ) := h.trans_le (Rat.le_ceil)
    exact_mod_cast hlt
  unfold digitCount
  omega

/-- A radix is the one of its value. -/
theorem ofRat_self (β : Radix) : ofRat β.value = .ok β := dif_pos ⟨β.two_le, β.ceil_le⟩

theorem value_of_integer? {r : ℕ} (h : β.integer? = some r) : β.value = r := by
  unfold integer? at h
  split at h
  · rename_i hden
    have hr : β.numer = r := Option.some.inj h
    rw [← hr, numer_eq, denom, hden, Nat.cast_one, mul_one]
  · cases h

end Radix

/-! ## Horner's rule -/

namespace Expansion

@[simp] theorem horner_nil : horner β [] = 0 := rfl

/-- Horner's rule, begun with `n`, moves `n` by as many places as there are digits. -/
theorem foldl_horner (ds : List ℕ) (n : ℚ) :
    ds.foldl (fun n (d : ℕ) => n * β.value + d) n = n * β.value ^ ds.length + horner β ds := by
  induction ds generalizing n with
  | nil => simp
  | cons d ds ih =>
    unfold horner
    rw [List.foldl_cons, List.foldl_cons, ih, ih, List.length_cons]
    ring

theorem horner_append (ds es : List ℕ) :
    horner β (ds ++ es) = horner β ds * β.value ^ es.length + horner β es := by
  rw [horner, List.foldl_append, foldl_horner]
  rfl

@[simp] theorem horner_cons (d : ℕ) (ds : List ℕ) :
    horner β (d :: ds) = d * β.value ^ ds.length + horner β ds := by
  rw [horner, List.foldl_cons, foldl_horner, zero_mul, zero_add]

theorem horner_nonneg (ds : List ℕ) : 0 ≤ horner β ds := by
  have hpos := β.value_pos
  induction ds with
  | nil => exact le_refl 0
  | cons d ds ih =>
    rw [horner_cons]
    positivity

theorem horner_replicate_zero (k : ℕ) : horner β (List.replicate k 0) = 0 := by
  induction k with
  | zero => rfl
  | succ k ih => rw [List.replicate_succ, horner_cons, ih, Nat.cast_zero, zero_mul, zero_add]

/-- Zeros in front change nothing. -/
theorem horner_leftpad (k : ℕ) (ds : List ℕ) : horner β (ds.leftpad k 0) = horner β ds := by
  rw [List.leftpad, horner_append, horner_replicate_zero, zero_mul, zero_add]

theorem horner_dropWhile (ds : List ℕ) : horner β (ds.dropWhile (· == 0)) = horner β ds := by
  induction ds with
  | nil => rfl
  | cons d ds ih =>
    by_cases hd : d = 0
    · rw [List.dropWhile_cons_of_pos (by simpa using hd), ih, horner_cons, hd, Nat.cast_zero,
        zero_mul, zero_add]
    · rw [List.dropWhile_cons_of_neg (by simpa using hd)]

/-- Zeros at the end move the other digits by as many places. -/
theorem horner_append_zeros (ds : List ℕ) (k : ℕ) :
    horner β (ds ++ List.replicate k 0) = horner β ds * β.value ^ k := by
  rw [horner_append, horner_replicate_zero, List.length_replicate, add_zero]

end Expansion

open Expansion

/-- **Digits of the radix that leave less than one of the last place**, `x` being counted in last
places. -/
structure Truncates (β : Radix) (x : ℚ) (ds : List ℕ) : Prop where
  lt_digitCount : ∀ d ∈ ds, d < β.digitCount
  le : horner β ds ≤ x
  lt : x < horner β ds + 1

theorem Truncates.cons {x : ℚ} {d : ℕ} {ds : List ℕ} (h : Truncates β x ds)
    (hd : d < β.digitCount) : Truncates β (d * β.value ^ ds.length + x) (d :: ds) where
  lt_digitCount := List.forall_mem_cons.2 ⟨hd, h.lt_digitCount⟩
  le := by rw [horner_cons]; linarith [h.le]
  lt := by rw [horner_cons]; linarith [h.lt]

/-- A rational has one natural number less than one below it. -/
theorem eq_of_natCast_bounds {m k : ℕ} {q : ℚ} (hm : (m : ℚ) ≤ q) (hm' : q < m + 1)
    (hk : (k : ℚ) ≤ q) (hk' : q < k + 1) : m = k := by
  have hle : m < k + 1 := by exact_mod_cast hm.trans_lt hk'
  have hge : k < m + 1 := by exact_mod_cast hk.trans_lt hm'
  omega

/-- A quotient of naturals, and what it leaves. -/
theorem natCast_div_bounds (n : ℕ) {d : ℕ} :
    ((n / d : ℕ) : ℚ) ≤ n / d ∧ (n / d : ℚ) < (n / d : ℕ) + 1 := by
  rw [← Nat.floor_div_eq_div (K := ℚ)]
  exact ⟨Nat.floor_le (by positivity), Nat.lt_floor_add_one _⟩

theorem truncates_singleton {n d : ℕ} (h : n / d < β.digitCount) :
    Truncates β (n / d) [n / d] where
  lt_digitCount := by simpa using h
  le := by simpa using (natCast_div_bounds n).1
  lt := by simpa using (natCast_div_bounds n).2

/-! ## Integer radices -/

section Integer

variable {r n : ℕ}

@[simp] theorem length_digitsBefore (k : ℕ) (rest : List ℕ) :
    (digitsBefore r k n rest).length = 2 ^ k + rest.length := by
  induction k generalizing n rest with
  | zero => simp [digitsBefore, Nat.add_comm]
  | succ k ih =>
    have hpow : 2 ^ (k + 1) = 2 ^ k + 2 ^ k := by rw [pow_succ, mul_two]
    simp only [digitsBefore, ih]
    omega

/-- Cutting a number in two leaves its value, as the upper half moves by the places of the lower
one. -/
theorem horner_digitsBefore (h : β.value = r) (k : ℕ) (rest : List ℕ) :
    horner β (digitsBefore r k n rest) = n * β.value ^ rest.length + horner β rest := by
  induction k generalizing n rest with
  | zero => simp [digitsBefore]
  | succ k ih =>
    have hcut : (n : ℚ) = (n / r ^ 2 ^ k : ℕ) * β.value ^ 2 ^ k + (n % r ^ 2 ^ k : ℕ) := by
      rw [h]
      exact_mod_cast (Nat.div_add_mod' n (r ^ 2 ^ k)).symm
    simp only [digitsBefore, Nat.pow_eq, ih, length_digitsBefore, pow_add]
    linear_combination -β.value ^ rest.length * hcut

theorem lt_of_mem_digitsBefore (hr : 0 < r) (k : ℕ) (rest : List ℕ) (hn : n < r ^ 2 ^ k)
    (hrest : ∀ d ∈ rest, d < r) : ∀ d ∈ digitsBefore r k n rest, d < r := by
  induction k generalizing n rest with
  | zero =>
    simp only [digitsBefore, List.mem_cons, forall_eq_or_imp]
    exact ⟨by simpa using hn, hrest⟩
  | succ k ih =>
    have hhalf : 0 < r ^ 2 ^ k := Nat.pow_pos hr
    have hsquare : r ^ 2 ^ (k + 1) = r ^ 2 ^ k * r ^ 2 ^ k := by rw [pow_succ, mul_two, pow_add]
    simp only [digitsBefore, Nat.pow_eq]
    refine ih _ (Nat.div_lt_of_lt_mul (hsquare ▸ hn)) (ih _ (Nat.mod_lt _ hhalf) hrest)

/-- The digits that a number is cut into hold it. -/
theorem lt_pow_widthExponent (hr : 2 ≤ r) : n < r ^ 2 ^ widthExponent r n := by
  have hlog : 0 < r.log2 := (Nat.le_log2 (by omega)).2 (by simpa using hr)
  -- `n` has fewer bits than `w + 1` digits of `log2 r` bits each
  set w := n.log2 / r.log2 with hw
  have hbits : n.log2 + 1 ≤ r.log2 * (w + 1) := Nat.lt_mul_div_succ n.log2 hlog
  have hwidth : w + 1 ≤ 2 ^ widthExponent r n := Nat.lt_log2_self
  calc n < 2 ^ (n.log2 + 1) := Nat.lt_log2_self
    _ ≤ 2 ^ (r.log2 * (w + 1)) := Nat.pow_le_pow_right (by omega) hbits
    _ = (2 ^ r.log2) ^ (w + 1) := Nat.pow_mul ..
    _ ≤ r ^ (w + 1) := Nat.pow_le_pow_left (Nat.log2_self_le (by omega)) _
    _ ≤ r ^ 2 ^ widthExponent r n := Nat.pow_le_pow_right (by omega) hwidth

theorem horner_digits (h : β.value = r) (n : ℕ) : horner β (digits r n) = n := by
  unfold digits
  rw [horner_dropWhile, horner_digitsBefore h, List.length_nil, horner_nil, pow_zero, mul_one,
    add_zero]

theorem lt_of_mem_digits (hr : 2 ≤ r) {d : ℕ} (hd : d ∈ digits r n) : d < r :=
  lt_of_mem_digitsBefore (by omega) _ [] (lt_pow_widthExponent hr) (by simp) d
    (List.dropWhile_subset _ hd)

end Integer

/-! ## Any radix -/

/-- Past the leading place there is nothing left. -/
theorem lt_pow_leadingExponent {n d : ℕ} (hd : 0 < d) :
    (n : ℚ) < d * β.value ^ (leadingExponent β n d + 1) := by
  induction n, d using leadingExponent.induct β with
  | case1 n d h ih =>
    have hpos : (0 : ℚ) < β.denom := by exact_mod_cast β.denom_pos
    have ih := ih (Nat.mul_pos hd β.numer_pos)
    rw [leadingExponent, dif_pos h]
    push_cast [Radix.numer_eq] at ih
    refine lt_of_mul_lt_mul_right (ih.trans_eq ?_) hpos.le
    ring
  | case2 n d h =>
    have hpos : (0 : ℚ) < β.denom := by exact_mod_cast β.denom_pos
    have hlt : n * β.denom < d * β.numer := Nat.lt_of_not_le fun hle => h ⟨hd, hle⟩
    have hcast : (n * β.denom : ℚ) < d * β.numer := by exact_mod_cast hlt
    rw [leadingExponent, dif_neg h, zero_add, pow_one]
    rw [Radix.numer_eq, ← mul_assoc] at hcast
    exact lt_of_mul_lt_mul_right hcast hpos.le

/-- The leading place holds one at least, unless it is that of the ones. -/
theorem pow_leadingExponent_le {n d : ℕ} (h : leadingExponent β n d ≠ 0) :
    d * β.numer ^ leadingExponent β n d ≤ n * β.denom ^ leadingExponent β n d := by
  induction n, d using leadingExponent.induct β with
  | case1 n d hstep ih =>
    rw [leadingExponent, dif_pos hstep]
    by_cases hnext : leadingExponent β (n * β.denom) (d * β.numer) = 0
    · rw [hnext, zero_add, pow_one, pow_one]
      exact hstep.2
    · have := ih hnext
      rwa [mul_assoc, mul_assoc, ← pow_succ', ← pow_succ'] at this
  | case2 n d hstep =>
    rw [leadingExponent, dif_neg hstep] at h
    exact absurd rfl h

/-- The leading place of a number below one is that of the ones. -/
theorem leadingExponent_of_lt {n d : ℕ} (h : n < d) : leadingExponent β n d = 0 := by
  have hradix : β.denom ≤ β.numer := by
    have := β.two_mul_denom_le
    omega
  by_contra hk
  have hle := (Nat.mul_le_mul_left d (Nat.pow_le_pow_left hradix _)).trans
    (pow_leadingExponent_le hk)
  exact absurd (Nat.le_of_mul_le_mul_right hle (Nat.pow_pos β.denom_pos)) (Nat.not_le.2 h)

/-- **The leading place of a number** that is one at least is that of the largest power of the radix
it holds. -/
theorem isGreatest_leadingExponent {n d : ℕ} (hd : 0 < d) (h : d ≤ n) :
    IsGreatest {k : ℕ | β.value ^ k ≤ n / d} (leadingExponent β n d) := by
  have hd' : (0 : ℚ) < d := by exact_mod_cast hd
  refine ⟨?_, fun k hk => ?_⟩
  · by_cases hzero : leadingExponent β n d = 0
    · rw [Set.mem_ofPred_eq, hzero, pow_zero, le_div_iff₀ hd', one_mul]
      exact_mod_cast h
    · have hdenom : (0 : ℚ) < β.denom ^ leadingExponent β n d := by
        have := β.denom_pos
        positivity
      have hle : (d * β.numer ^ leadingExponent β n d : ℚ) ≤
          n * β.denom ^ leadingExponent β n d := by
        exact_mod_cast pow_leadingExponent_le hzero
      rw [Radix.numer_eq, mul_pow, ← mul_assoc] at hle
      rw [Set.mem_ofPred_eq, le_div_iff₀ hd', mul_comm]
      exact le_of_mul_le_mul_right hle hdenom
  · -- one place further there is nothing left
    have hlt : β.value ^ k < β.value ^ (leadingExponent β n d + 1) := by
      refine hk.trans_lt ?_
      rw [div_lt_iff₀ hd', mul_comm]
      exact lt_pow_leadingExponent hd
    exact Nat.lt_succ_iff.1 ((pow_lt_pow_iff_right₀ Radix.one_lt_value).1 hlt)

@[simp] theorem length_greedyFrom (places rest weight : ℕ) :
    (greedyFrom β places rest weight).length = places + 1 := by
  induction places generalizing rest weight with
  | zero => rfl
  | succ places ih => rw [greedyFrom, List.length_cons, ih]

/-- The largest digit that fits is a digit of the radix if the places above are empty. -/
theorem div_lt_digitCount {rest weight : ℕ} (hweight : 0 < weight)
    (hrest : (rest : ℚ) < weight * β.value) : rest / weight < β.digitCount := by
  have hpos : (0 : ℚ) < weight := by exact_mod_cast hweight
  refine Radix.lt_digitCount ((natCast_div_bounds rest).1.trans_lt ?_)
  rw [div_lt_iff₀ hpos]
  linarith

/-- From one place to the next, the division of the weight by the radix is exact. -/
theorem next_weight (c places : ℕ) :
    c * β.numer ^ (places + 1) * β.denom / β.numer = c * β.denom * β.numer ^ places :=
  Nat.div_eq_of_eq_mul_left β.numer_pos (by ring)

/-- The digit of a place, and the digits of what is left. -/
theorem greedyFrom_succ (c places rest : ℕ) :
    greedyFrom β (places + 1) rest (c * β.numer ^ (places + 1)) =
      rest / (c * β.numer ^ (places + 1)) ::
        greedyFrom β places (rest % (c * β.numer ^ (places + 1))) (c * β.denom * β.numer ^ places) := by
  rw [greedyFrom, next_weight]

/-- What is left is less than one of its place, which is the radix of the next one. -/
theorem mod_lt_next (places rest : ℕ) {c : ℕ} (hc : 0 < c) :
    ((rest % (c * β.numer ^ (places + 1)) : ℕ) : ℚ) <
      (c * β.denom : ℕ) * β.numer ^ places * β.value := by
  have hpos : 0 < c * β.numer ^ (places + 1) := Nat.mul_pos hc (Nat.pow_pos β.numer_pos)
  have hlt : ((rest % (c * β.numer ^ (places + 1)) : ℕ) : ℚ) < (c * β.numer ^ (places + 1) : ℕ) := by
    exact_mod_cast Nat.mod_lt rest hpos
  refine hlt.trans_eq ?_
  push_cast [Radix.numer_eq]
  ring

/-- A number counted in last places: the digit of its leading place, and the rest. -/
theorem div_lastPlace (places : ℕ) {c rest weight : ℕ} (hc : 0 < c)
    (hweight : weight = c * β.numer ^ (places + 1)) :
    (rest : ℚ) / (c * β.denom ^ (places + 1)) = (rest / weight : ℕ) * β.value ^ (places + 1) +
      (rest % weight : ℕ) / ((c * β.denom : ℕ) * β.denom ^ places) := by
  have hb : (0 : ℚ) < β.denom := by exact_mod_cast β.denom_pos
  have hc' : (0 : ℚ) < c := by exact_mod_cast hc
  have hdiv : (rest : ℚ) = (rest / weight : ℕ) * weight + (rest % weight : ℕ) := by
    exact_mod_cast (Nat.div_add_mod' rest weight).symm
  have hcast : (weight : ℚ) = c * (β.value * β.denom) ^ (places + 1) := by
    rw [hweight, ← Radix.numer_eq]
    push_cast
    rfl
  calc (rest : ℚ) / (c * β.denom ^ (places + 1))
      = ((rest / weight : ℕ) * weight + (rest % weight : ℕ)) / (c * β.denom ^ (places + 1)) := by
        rw [← hdiv]
    _ = (rest / weight : ℕ) * β.value ^ (places + 1) +
          (rest % weight : ℕ) / ((c * β.denom : ℕ) * β.denom ^ places) := by
        rw [hcast, mul_pow]
        push_cast
        field_simp
        ring

/-- **The digits from a place downwards.** The weight of the place is `c` times a power of the
numerator of the radix, so that every division by the radix is exact, down to the last place, of
weight `c` times a power of the denominator. -/
theorem truncates_greedyFrom (places : ℕ) {c rest : ℕ} (hc : 0 < c)
    (hrest : (rest : ℚ) < c * β.numer ^ places * β.value) :
    Truncates β (rest / (c * β.denom ^ places))
      (greedyFrom β places rest (c * β.numer ^ places)) := by
  induction places generalizing c rest with
  | zero =>
    simp only [greedyFrom, pow_zero, mul_one] at hrest ⊢
    exact truncates_singleton (div_lt_digitCount hc hrest)
  | succ places ih =>
    set weight := c * β.numer ^ (places + 1) with hweight
    have hpos : 0 < weight := Nat.mul_pos hc (Nat.pow_pos β.numer_pos)
    have hdigit : rest / weight < β.digitCount :=
      div_lt_digitCount hpos (by rw [hweight]; exact_mod_cast hrest)
    have htail := (ih (Nat.mul_pos hc β.denom_pos) (mod_lt_next places rest hc)).cons hdigit
    rw [length_greedyFrom, ← div_lastPlace places hc hweight] at htail
    rw [greedyFrom_succ]
    exact htail

/-! ## The digits of a quotient -/

variable {n d : ℕ}

theorem length_le_scaledDigits (r p : ℕ) : p + 1 ≤ (scaledDigits r n d p).length := by
  unfold scaledDigits
  rw [List.length_leftpad]
  exact le_max_left _ _

theorem truncates_scaledDigits {r : ℕ} (h : β.value = r) (p : ℕ) :
    Truncates β (n / d * β.value ^ p) (scaledDigits r n d p) := by
  have hr := Radix.two_le_of_value h
  have hscaled : (n / d * β.value ^ p : ℚ) = (n * r ^ p : ℕ) / (d : ℚ) := by
    rw [h]
    push_cast
    ring
  have hvalue : horner β (scaledDigits r n d p) = (n * r ^ p / d : ℕ) := by
    unfold scaledDigits
    rw [horner_leftpad, horner_digits h, Nat.pow_eq]
  rw [hscaled]
  refine ⟨fun i hi => ?_, ?_, ?_⟩
  · have hlt : i < r := by
      rcases List.mem_append.1 hi with hzero | hdigit
      · have := List.eq_of_mem_replicate hzero
        omega
      · exact lt_of_mem_digits hr hdigit
    exact Radix.lt_digitCount (by rw [h]; exact_mod_cast hlt)
  · rw [hvalue]
    exact (natCast_div_bounds _).1
  · rw [hvalue]
    exact (natCast_div_bounds _).2

/-- The digits of a quotient in any radix are those from its leading place downwards. -/
theorem greedyDigits_eq (n d p : ℕ) : greedyDigits β n d p =
    greedyFrom β (leadingExponent β n d + p)
      (n * β.denom ^ leadingExponent β n d * β.numer ^ p)
      (d * β.numer ^ (leadingExponent β n d + p)) := by
  unfold greedyDigits
  simp only [Nat.pow_eq]

@[simp] theorem length_greedyDigits (n d p : ℕ) :
    (greedyDigits β n d p).length = leadingExponent β n d + p + 1 := by
  rw [greedyDigits_eq, length_greedyFrom]

/-- The quotient is less than the radix, counted in leading places. -/
theorem scaled_lt (hd : 0 < d) (p : ℕ) :
    ((n * β.denom ^ leadingExponent β n d * β.numer ^ p : ℕ) : ℚ) <
      d * β.numer ^ (leadingExponent β n d + p) * β.value := by
  set k := leadingExponent β n d with hk
  have hscale : (0 : ℚ) < β.denom ^ k * β.numer ^ p := by
    have := β.numer_pos
    have := β.denom_pos
    positivity
  have hlt := mul_lt_mul_of_pos_right (lt_pow_leadingExponent (β := β) (n := n) hd) hscale
  push_cast
  calc (n : ℚ) * β.denom ^ k * β.numer ^ p = n * (β.denom ^ k * β.numer ^ p) := by ring
    _ < d * β.value ^ (k + 1) * (β.denom ^ k * β.numer ^ p) := hlt
    _ = d * β.numer ^ (k + p) * β.value := by
      rw [Radix.numer_eq]
      ring

/-- The quotient counted in last places. -/
theorem scaled_div (n d k p : ℕ) : ((n * β.denom ^ k * β.numer ^ p : ℕ) : ℚ) /
    (d * β.denom ^ (k + p)) = n / d * β.value ^ p := by
  have hb : (0 : ℚ) < β.denom := by exact_mod_cast β.denom_pos
  push_cast
  rw [Radix.numer_eq, mul_pow, pow_add]
  field_simp

theorem truncates_greedyDigits (hd : 0 < d) (p : ℕ) :
    Truncates β (n / d * β.value ^ p) (greedyDigits β n d p) := by
  have hlt := scaled_lt (β := β) (n := n) hd p
  have hplaces := truncates_greedyFrom (leadingExponent β n d + p) hd hlt
  rwa [scaled_div, ← greedyDigits_eq] at hplaces

/-- **The digits of a quotient**, in any radix, cut it off at the last place. -/
theorem truncates_quotientDigits (hd : 0 < d) (p : ℕ) :
    Truncates β (n / d * β.value ^ p) (quotientDigits β n d p) := by
  unfold quotientDigits
  split
  · rename_i r hr
    exact truncates_scaledDigits (Radix.value_of_integer? hr) p
  · exact truncates_greedyDigits hd p

/-- At least one digit is whole. -/
theorem length_le_quotientDigits (p : ℕ) : p + 1 ≤ (quotientDigits β n d p).length := by
  unfold quotientDigits
  split
  · exact length_le_scaledDigits _ p
  · rw [length_greedyDigits]
    omega

end RadixCalc
