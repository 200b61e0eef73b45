import RadixCalc.Proofs.Quotients

/-!
# The places of a number

Digits of which every tail is less than the power of the radix in front of it are the ones that taking
the largest digit that fits finds, so that a number has one such sequence of digits from a place
downwards. In an integer radix all digits are of this kind, and both ways of finding digits agree.

* `Admissible`: such digits.
* `admissible_greedyFrom`, `greedyFrom_eq`: the digits that are found are such digits, and there are
  no others.
* `Placed`, `Placed.eq`: admissible digits of which the first is not zero unless it is that of the
  ones, at most one sequence for a number.
* `greedyDigits_of_placed`: a number cut off has the digits it was cut off to.
* `scaledDigits_eq_greedyDigits`, `digits_agree_of_integer`: the two ways of finding digits agree in an
  integer radix.
* `leadingExponent_le_bitLength`, `Numeral.places_lt_of_write`: how many places there are.
-/

namespace RadixCalc

open Expansion

variable {β : Radix} {b n d p : ℕ} {ds es : List ℕ}

/-! ## Admissible digits -/

/-- **Digits of which every tail is less than the power of the radix in front of it.** -/
def Admissible (β : Radix) : List ℕ → Prop
  | [] => True
  | d :: ds => horner β (d :: ds) < β.value ^ (ds.length + 1) ∧ Admissible β ds

theorem Admissible.lt (h : Admissible β ds) : horner β ds < β.value ^ ds.length := by
  cases ds with
  | nil => simp
  | cons d ds => exact h.1

theorem Admissible.dropWhile (h : Admissible β ds) : Admissible β (ds.dropWhile (· == 0)) := by
  induction ds with
  | nil => exact h
  | cons d ds ih =>
    rw [List.dropWhile_cons]
    split
    · exact ih h.2
    · exact h

/-- Zeros in front keep digits admissible. -/
theorem Admissible.leftpad (h : Admissible β ds) (k : ℕ) : Admissible β (ds.leftpad k 0) := by
  unfold List.leftpad
  induction k - ds.length with
  | zero => exact h
  | succ j ih =>
    refine ⟨?_, ih⟩
    rw [horner_cons, Nat.cast_zero, zero_mul, zero_add]
    exact ih.lt.trans_le (pow_le_pow_right₀ Radix.one_lt_value.le (Nat.le_succ _))

/-- A first digit that is not zero counts one of its place at least. -/
theorem pow_le_horner_cons (hd : d ≠ 0) : β.value ^ ds.length ≤ horner β (d :: ds) := by
  have hpos := β.value_pos
  have hone : (1 : ℚ) ≤ d := by exact_mod_cast Nat.one_le_iff_ne_zero.2 hd
  have hrest := horner_nonneg (β := β) ds
  rw [horner_cons]
  have hpower := le_mul_of_one_le_left (pow_nonneg hpos.le ds.length) hone
  linarith

/-- Digits below an integer radix are admissible. -/
theorem admissible_of_lt (hb : β.value = b) (h : ∀ d ∈ ds, d < b) : Admissible β ds := by
  have htwo := Radix.two_le_of_value hb
  induction ds with
  | nil => trivial
  | cons d ds ih =>
    refine ⟨?_, ih fun e he => h e (List.mem_cons_of_mem _ he)⟩
    have hlt := Nat.ofDigits_lt_base_pow_length (l := (d :: ds).reverse) htwo
      fun e he => h e (List.mem_reverse.1 he)
    rw [horner_eq_ofDigits hb, hb, ← List.length_cons (a := d), ← List.length_reverse]
    exact_mod_cast hlt

/-- The digits of a natural number in an integer radix are admissible. -/
theorem admissible_digits (hb : β.value = b) (n : ℕ) : Admissible β (digits b n) :=
  admissible_of_lt hb fun _ hd => lt_of_mem_digits (Radix.two_le_of_value hb) hd

/-- Zeros at the end make no difference. -/
theorem admissible_append_zeros (k : ℕ) :
    Admissible β (ds ++ List.replicate k 0) ↔ Admissible β ds := by
  induction ds with
  | nil =>
    have hnil : Admissible β [] := trivial
    have hzeros := hnil.leftpad k
    rw [List.leftpad, List.length_nil, Nat.sub_zero, List.append_nil] at hzeros
    exact iff_of_true hzeros trivial
  | cons d ds ih =>
    rw [List.cons_append, Admissible, Admissible, ih, ← List.cons_append, horner_append_zeros,
      List.length_append, List.length_replicate, Nat.add_right_comm, pow_add,
      mul_lt_mul_iff_left₀ (pow_pos β.value_pos k)]

/-- Admissible digits are digits of the radix. -/
theorem Admissible.lt_digitCount (h : Admissible β ds) : ∀ d ∈ ds, d < β.digitCount := by
  induction ds with
  | nil => exact List.forall_mem_nil _
  | cons d ds ih =>
    refine List.forall_mem_cons.2 ⟨Radix.lt_digitCount ?_, ih h.2⟩
    have hpos := pow_pos β.value_pos ds.length
    have hlt := h.1
    rw [horner_cons, pow_succ'] at hlt
    exact lt_of_mul_lt_mul_right (by linarith [horner_nonneg (β := β) ds]) hpos.le

/-- Digits behind a place stand for a multiple of the denominator of the radix, counted in units of
its power. -/
theorem exists_horner_mul_pow (ds : List ℕ) :
    ∃ m : ℕ, horner β ds * β.denom ^ ds.length = β.denom * m := by
  induction ds with
  | nil => exact ⟨0, by simp⟩
  | cons d ds ih =>
    obtain ⟨m, hm⟩ := ih
    refine ⟨d * β.numer ^ ds.length + β.denom * m, ?_⟩
    rw [horner_cons, List.length_cons, pow_succ, add_mul]
    push_cast
    rw [Radix.numer_eq, mul_pow, ← hm]
    ring

/-! ## The digits that are found -/

variable {places c rest : ℕ}

/-- The digits that are found stand for less than the power in front of them. -/
theorem horner_greedyFrom_lt (hc : 0 < c) (hrest : (rest : ℚ) < c * β.numer ^ places * β.value) :
    horner β (greedyFrom β places rest (c * β.numer ^ places)) < β.value ^ (places + 1) := by
  have hb : (0 : ℚ) < β.denom := by exact_mod_cast β.denom_pos
  have hc' : (0 : ℚ) < c := by exact_mod_cast hc
  refine (truncates_greedyFrom places hc hrest).le.trans_lt ?_
  rw [div_lt_iff₀ (by positivity)]
  refine hrest.trans_eq ?_
  rw [Radix.numer_eq, mul_pow, pow_succ]
  ring

/-- **The largest digits that fit are admissible.** -/
theorem admissible_greedyFrom (hc : 0 < c) (hrest : (rest : ℚ) < c * β.numer ^ places * β.value) :
    Admissible β (greedyFrom β places rest (c * β.numer ^ places)) := by
  have hlt := horner_greedyFrom_lt hc hrest
  induction places generalizing c rest with
  | zero => exact ⟨hlt, trivial⟩
  | succ places ih =>
    have hleft := mod_lt_next (β := β) places rest hc
    have hpos := Nat.mul_pos hc β.denom_pos
    rw [greedyFrom_succ] at hlt ⊢
    refine ⟨?_, ih hpos hleft (horner_greedyFrom_lt hpos hleft)⟩
    rwa [length_greedyFrom]

/-- The digit of a place and what is left, from a sum of both. -/
theorem div_mod_of_split {weight : ℕ} {t : ℚ} (hsplit : (rest : ℚ) = d * weight + t) (hlow : 0 ≤ t)
    (hhigh : t < weight) : rest / weight = d ∧ ((rest % weight : ℕ) : ℚ) = t := by
  have hle : d * weight ≤ rest := by
    have : (d * weight : ℚ) ≤ rest := by linarith
    exact_mod_cast this
  have hlt : rest < (d + 1) * weight := by
    have : (rest : ℚ) < (d + 1) * weight := by linarith
    exact_mod_cast this
  have hdiv : rest / weight = d := Nat.div_eq_of_lt_le hle hlt
  refine ⟨hdiv, ?_⟩
  have hsum : ((rest / weight : ℕ) * weight + (rest % weight : ℕ) : ℚ) = rest := by
    exact_mod_cast Nat.div_add_mod' rest weight
  rw [hdiv, hsplit] at hsum
  linarith

/-- **Admissible digits are the largest that fit**, from the place of the first one downwards. -/
theorem greedyFrom_eq (hc : 0 < c) (h : Admissible β ds) (hlen : ds.length = places + 1)
    (hrest : (rest : ℚ) = horner β ds * (c * β.denom ^ places)) :
    greedyFrom β places rest (c * β.numer ^ places) = ds := by
  induction places generalizing c rest ds with
  | zero =>
    obtain ⟨d, rfl⟩ := List.length_eq_one_iff.1 hlen
    have hdigit : rest = d * c := by
      rw [horner_cons, List.length_nil, pow_zero, pow_zero, mul_one, mul_one, horner_nil,
        add_zero] at hrest
      exact_mod_cast hrest
    rw [greedyFrom, pow_zero, mul_one, hdigit, Nat.mul_div_cancel d hc]
  | succ places ih =>
    obtain ⟨d, ds, rfl⟩ := List.exists_cons_of_length_eq_add_one hlen
    have hlen : ds.length = places + 1 := Nat.succ.inj hlen
    set weight := c * β.numer ^ (places + 1) with hweight
    have hcast : (weight : ℚ) = β.value ^ (places + 1) * (c * β.denom ^ (places + 1)) := by
      rw [hweight]
      push_cast
      rw [Radix.numer_eq, mul_pow]
      ring
    -- behind the first digit there is less than one of its place
    have hsplit : (rest : ℚ) = d * weight + horner β ds * (c * β.denom ^ (places + 1)) := by
      rw [hrest, horner_cons, hlen, hcast]
      ring
    have hlow : 0 ≤ horner β ds * (c * β.denom ^ (places + 1) : ℚ) :=
      mul_nonneg (horner_nonneg ds) (by positivity)
    have hhigh : horner β ds * (c * β.denom ^ (places + 1) : ℚ) < weight := by
      have hscale : (0 : ℚ) < c * β.denom ^ (places + 1) := by
        have := β.denom_pos
        positivity
      rw [hcast, ← hlen]
      exact mul_lt_mul_of_pos_right h.2.lt (hlen ▸ hscale)
    obtain ⟨hdiv, hmod⟩ := div_mod_of_split hsplit hlow hhigh
    have hnext : ((rest % weight : ℕ) : ℚ) =
        horner β ds * ((c * β.denom : ℕ) * β.denom ^ places) := by
      rw [hmod]
      push_cast
      ring
    rw [greedyFrom_succ, hdiv, ih (Nat.mul_pos hc β.denom_pos) h.2 hlen hnext]

/-- **As many admissible digits** that stand for the same number are the same: they are the largest
that fit. -/
theorem Admissible.eq (hds : Admissible β ds) (hes : Admissible β es)
    (hlen : ds.length = es.length) (h : horner β ds = horner β es) : ds = es := by
  cases ds with
  | nil => exact (List.length_eq_zero_iff.1 hlen.symm).symm
  | cons d ds =>
    obtain ⟨m, hm⟩ := exists_horner_mul_pow (β := β) (d :: ds)
    have hscaled : ((β.denom * m : ℕ) : ℚ) =
        horner β (d :: ds) * (β.denom * β.denom ^ ds.length) := by
      rw [← pow_succ', ← List.length_cons (a := d), hm, Nat.cast_mul]
    rw [← greedyFrom_eq β.denom_pos hds rfl hscaled]
    exact greedyFrom_eq β.denom_pos hes hlen.symm (h ▸ hscaled)

/-! ## Digits of a number -/

/-- **Admissible digits, `p` of them fractional**, the first of which is not zero unless it is the
only whole one. -/
structure Placed (β : Radix) (p : ℕ) (ds : List ℕ) : Prop where
  admissible : Admissible β ds
  lt_length : p < ds.length
  first_ne_zero : p + 1 < ds.length → ds.head? ≠ some 0

/-- Digits of which the first one is not zero are at least one in its place. -/
theorem Placed.pow_le (h : Placed β p ds) (hlen : p + 1 < ds.length) :
    β.value ^ (ds.length - 1) ≤ horner β ds := by
  have hfirst := h.first_ne_zero hlen
  obtain ⟨d, ds, rfl⟩ := List.exists_cons_of_length_pos (Nat.zero_lt_of_lt hlen)
  exact pow_le_horner_cons (by simpa using hfirst)

/-- The digits of a larger number are not fewer. -/
theorem Placed.length_le (hds : Placed β p ds) (hes : Placed β p es)
    (h : horner β ds ≤ horner β es) : ds.length ≤ es.length := by
  rcases Nat.lt_or_ge (p + 1) ds.length with hlong | hshort
  · have hpow := ((hds.pow_le hlong).trans h).trans_lt hes.admissible.lt
    have hlt := (pow_lt_pow_iff_right₀ Radix.one_lt_value).1 hpow
    omega
  · exact hshort.trans hes.lt_length

/-- **A number has one sequence of digits.** -/
theorem Placed.eq (hds : Placed β p ds) (hes : Placed β p es) (h : horner β ds = horner β es) :
    ds = es :=
  hds.admissible.eq hes.admissible
    (le_antisymm (hds.length_le hes h.le) (hes.length_le hds h.ge)) h

/-- The digits from the leading place downwards. -/
theorem placed_greedyDigits (hd : 0 < d) (p : ℕ) : Placed β p (greedyDigits β n d p) := by
  have hlength := length_greedyDigits (β := β) n d p
  rw [greedyDigits_eq] at hlength ⊢
  set k := leadingExponent β n d with hk
  refine ⟨admissible_greedyFrom hd (scaled_lt hd p), by omega, fun hlen => ?_⟩
  rw [hlength] at hlen
  obtain ⟨places, hplaces⟩ : ∃ places, k + p = places + 1 := ⟨k + p - 1, by omega⟩
  -- one of the leading place fits
  have hweight : d * β.numer ^ (k + p) ≤ n * β.denom ^ k * β.numer ^ p := by
    rw [pow_add, ← mul_assoc]
    exact Nat.mul_le_mul_right _ (pow_leadingExponent_le (by omega))
  have hpos : 0 < d * β.numer ^ (k + p) := Nat.mul_pos hd (Nat.pow_pos β.numer_pos)
  have hfirst := Nat.div_pos hweight hpos
  rw [hplaces] at hfirst ⊢
  rw [greedyFrom_succ, List.head?_cons, ne_eq, Option.some_inj]
  exact hfirst.ne'

theorem head?_dropWhile_ne (ds : List ℕ) : (ds.dropWhile (· == 0)).head? ≠ some 0 := by
  intro hzero
  have hfirst := List.head?_dropWhile_not (· == 0) ds
  rw [hzero] at hfirst
  simp at hfirst

/-- Digits with zeros in front up to one whole digit. -/
theorem Admissible.placed (h : Admissible β ds) (hfirst : ds.head? ≠ some 0) :
    Placed β p (ds.leftpad (p + 1) 0) where
  admissible := h.leftpad _
  lt_length := by
    rw [List.length_leftpad]
    exact lt_max_of_lt_left p.lt_succ_self
  first_ne_zero hlen := by
    rw [List.length_leftpad] at hlen
    -- there are digits enough, so no zeros are put in front
    have hlong : p + 1 - ds.length = 0 := by omega
    rwa [List.leftpad, hlong, List.replicate_zero, List.nil_append]

/-- The digits in an integer radix. -/
theorem placed_scaledDigits (hb : β.value = b) (n d p : ℕ) : Placed β p (scaledDigits b n d p) :=
  (admissible_digits hb _).placed (head?_dropWhile_ne _)

/-- **Digits of a number are the ones found of it**, from its leading place downwards. -/
theorem greedyDigits_of_placed (hd : 0 < d) (h : Placed β p ds)
    (hvalue : n / d * β.value ^ p = horner β ds) : greedyDigits β n d p = ds := by
  set k := leadingExponent β n d with hk
  have hd' : (0 : ℚ) < d := by exact_mod_cast hd
  have hfound := placed_greedyDigits (β := β) (n := n) hd p
  have hlength : (greedyDigits β n d p).length = k + p + 1 := length_greedyDigits n d p
  -- no place in front of the leading one is needed
  have hlt : horner β ds < β.value ^ (k + p + 1) := by
    rw [← hvalue, Nat.add_right_comm, pow_add]
    refine mul_lt_mul_of_pos_right ?_ (pow_pos β.value_pos p)
    rw [div_lt_iff₀ hd', mul_comm]
    exact lt_pow_leadingExponent hd
  have hshort : ds.length ≤ k + p + 1 := by
    by_cases hlong : p + 1 < ds.length
    · have := (pow_lt_pow_iff_right₀ Radix.one_lt_value).1 ((h.pow_le hlong).trans_lt hlt)
      omega
    · omega
  have hlong := hfound.length_le h (hvalue ▸ (truncates_greedyDigits hd p).le)
  rw [greedyDigits_eq, ← hk]
  have hscale : (0 : ℚ) < d * β.denom ^ (k + p) := by
    have := β.denom_pos
    positivity
  exact greedyFrom_eq hd h.admissible (by omega)
    ((div_eq_iff hscale.ne').1 ((scaled_div n d k p).trans hvalue))

/-- **Both ways of finding digits agree** in an integer radix. -/
theorem scaledDigits_eq_greedyDigits (hb : β.value = b) (hd : 0 < d) (p : ℕ) :
    scaledDigits b n d p = greedyDigits β n d p := by
  refine (placed_scaledDigits hb n d p).eq (placed_greedyDigits hd p) ?_
  obtain ⟨-, hle, hlt⟩ := truncates_scaledDigits (n := n) (d := d) hb p
  obtain ⟨-, hle', hlt'⟩ := truncates_greedyDigits (β := β) (n := n) hd p
  rw [horner_eq_ofDigits hb] at hle hlt hle' hlt' ⊢
  rw [horner_eq_ofDigits hb, eq_of_natCast_bounds hle hlt hle' hlt']

/-- The radix of a natural number. -/
theorem Radix.exists_of_natural {r : ℕ} (hr : 2 ≤ r) (hcount : r ≤ Digit.count) :
    ∃ β : Radix, β.value = r ∧ β.numer = r ∧ β.denom = 1 := by
  have hceil : (r : ℚ).ceil = r := Rat.ceil_intCast r
  exact ⟨⟨r, by exact_mod_cast hr, by rw [hceil]; exact_mod_cast hcount⟩, rfl, rfl, rfl⟩

/-- **In every integer radix one division finds the largest digits that fit**, as many as the
largest power of the radix that the number holds says, and all of them below the radix. There may be
any number of places; those of a number that is written fit 32 bits, by
`Numeral.places_lt_of_write`. -/
theorem digits_agree_of_integer {r : ℕ} (hr : 2 ≤ r) (hcount : r ≤ Digit.count) (hd : 0 < d)
    (n p : ℕ) :
    ∃ β : Radix, Radix.ofRat r = .ok β ∧ β.numer = r ∧ β.denom = 1 ∧
      scaledDigits r n d p = greedyDigits β n d p ∧
      (∃ k, (n < d → k = 0) ∧ (d ≤ n → IsGreatest {k : ℕ | (r : ℚ) ^ k ≤ n / d} k) ∧
        (scaledDigits r n d p).length = k + p + 1) ∧
      ∀ i ∈ scaledDigits r n d p, i < r := by
  obtain ⟨β, hvalue, hnumer, hdenom⟩ := Radix.exists_of_natural hr hcount
  have hradix : Radix.ofRat r = .ok β := hvalue ▸ β.ofRat_self
  have hagree := scaledDigits_eq_greedyDigits (n := n) hvalue hd p
  have hdigits := (truncates_scaledDigits (n := n) (d := d) hvalue p).lt_digitCount
  rw [Radix.digitCount_of_value hvalue] at hdigits
  refine ⟨β, hradix, hnumer, hdenom, hagree,
    ⟨leadingExponent β n d, leadingExponent_of_lt, ?_, ?_⟩, hdigits⟩
  · rw [← hvalue]
    exact isGreatest_leadingExponent hd
  · rw [hagree, length_greedyDigits]

/-- A hundred thirds in base ten, to two places. -/
theorem digits_agree_ten :
    ∃ β : Radix, Radix.ofRat (10 : ℕ) = .ok β ∧ β.numer = 10 ∧ β.denom = 1 ∧
      scaledDigits 10 100 3 2 = greedyDigits β 100 3 2 ∧
      (∃ k, (100 < 3 → k = 0) ∧
        (3 ≤ 100 → IsGreatest {k : ℕ | ((10 : ℕ) : ℚ) ^ k ≤ (100 : ℕ) / (3 : ℕ)} k) ∧
        (scaledDigits 10 100 3 2).length = k + 2 + 1) ∧
      ∀ i ∈ scaledDigits 10 100 3 2, i < 10 :=
  digits_agree_of_integer (by decide) (by decide) (by decide) 100 2

/-- The digits of a quotient are the largest that fit, whatever the radix. -/
theorem quotientDigits_eq_greedyDigits (hd : 0 < d) (p : ℕ) :
    quotientDigits β n d p = greedyDigits β n d p := by
  unfold quotientDigits
  split
  · rename_i r hr
    exact scaledDigits_eq_greedyDigits (Radix.value_of_integer? hr) hd p
  · rfl

/-! ## How many places there are -/

/-- **A number has no more places than bits** in front of the ones: the radix is two at least. -/
theorem leadingExponent_le_bitLength (hd : 0 < d) : leadingExponent β n d ≤ bitLength n := by
  set k := leadingExponent β n d with hk
  by_cases hzero : k = 0
  · rw [hzero]
    exact Nat.zero_le _
  have hscaled : 2 ^ k * (d * β.denom ^ k) ≤ n * (d * β.denom ^ k) :=
    calc 2 ^ k * (d * β.denom ^ k) = d * (2 * β.denom) ^ k := by rw [mul_pow, mul_left_comm]
      _ ≤ d * β.numer ^ k := Nat.mul_le_mul_left d (Nat.pow_le_pow_left β.two_mul_denom_le k)
      _ ≤ n * β.denom ^ k := pow_leadingExponent_le hzero
      _ ≤ n * (d * β.denom ^ k) := Nat.mul_le_mul_left n (Nat.le_mul_of_pos_left _ hd)
  have hpow : 2 ^ k ≤ n :=
    Nat.le_of_mul_le_mul_right hscaled (Nat.mul_pos hd (Nat.pow_pos β.denom_pos))
  have hbits := (bitLength_bounds ((Nat.two_pow_pos k).trans_le hpow)).1
  exact ((Nat.pow_lt_pow_iff_right (by decide)).1 (hpow.trans_lt hbits)).le

/-- **The places of a number that is written** fit 32 bits, in every radix: its bits are limited, and
so are its fractional places. -/
theorem Numeral.places_lt_of_write {q : ℚ} {s : String} (hp : p ≤ maxPrecision)
    (h : writePositional q β p = .ok s) :
    leadingExponent β q.num.natAbs q.den + p + 1 < 2 ^ 32 := by
  have hbits : bitLength q.num.natAbs ≤ maxBits :=
    (ratBits_le_iff.1 (ratBits_le_of_write h)).1.trans (bitLimit_le β)
  have hplaces := leadingExponent_le_bitLength (β := β) (n := q.num.natAbs) q.den_pos
  have hlimits : maxBits + maxPrecision + 1 < 2 ^ 32 := by decide
  omega

/-! ## The expansion of a rational -/

namespace Expansion

variable {q : ℚ}

/-- The expansion of a rational, from its digits. -/
theorem ofRat_of_placed (h : Placed β p ds) (hq : |q| * β.value ^ p = horner β ds) :
    ofRat β q p = ofDigits ds p := by
  rw [abs_eq_natAbs_div_den] at hq
  rw [ofRat, quotientDigits_eq_greedyDigits q.den_pos, greedyDigits_of_placed q.den_pos h hq]

theorem placed_ofRat (q : ℚ) (p : ℕ) :
    Placed β p ((ofRat β q p).whole ++ (ofRat β q p).fraction) := by
  rw [ofRat, whole_append_fraction, quotientDigits_eq_greedyDigits q.den_pos]
  exact placed_greedyDigits q.den_pos p

end Expansion

end RadixCalc
