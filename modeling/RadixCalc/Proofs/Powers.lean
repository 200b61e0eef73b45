import Mathlib.Algebra.Field.Rat
import Mathlib.Algebra.Order.Ring.Rat
import Mathlib.Tactic.NormNum
import RadixCalc.Expr.Value
import RadixCalc.Proofs.Size

/-!
# Powers with an integer exponent

A power is exact, and it is taken only if it can be written: its bits are at most those of the base
times the absolute value of the exponent.

* `PowerRefused`, `power_intCast`: which powers are taken, and their values.
* `ratBits_inv`, `ratBits_pow_le`: the bits of an inverse and of a power.
* `ratBits_zpow_le`: the bits of a power that is taken.
* `write_of_power`: such a power is written in every integer radix.
-/

namespace RadixCalc

variable {a x : ℚ} {n : ℤ}

/-! ## Which powers are taken -/

/-- An integer exponent that is not taken: it does not fit in 32 bits, or the power would have too
many bits. The powers of zero are all taken. -/
def PowerRefused (a : Rat) (n : ℤ) : Prop :=
  a ≠ 0 ∧ (n < -maxExponent - 1 ∨ maxExponent < n ∨ powerTooLong a n = true)

theorem power_intCast_of_refused {n : ℤ} (h : PowerRefused a n) (ε : Rat) :
    power ε a n = .error (.exponentTooLarge (fractionText n)) := by
  obtain ⟨ha, hn⟩ := h
  unfold power
  dsimp only
  rw [if_neg ha, Rat.num_intCast, if_pos]
  simp only [Bool.or_eq_true, decide_eq_true_eq]
  rcases hn with h | h | h
  · exact .inl (.inl h)
  · exact .inl (.inr h)
  · exact .inr h

theorem power_zero_of_neg {n : ℤ} (hn : n < 0) (ε : Rat) :
    power ε 0 n = .ok (0, [.divisionByZero]) := by
  have hneg : (n : Rat) < 0 := by exact_mod_cast hn
  unfold power powerOfZero
  dsimp only
  rw [if_pos rfl, if_pos hneg]

/-- Any other power with an integer exponent is exact. -/
theorem power_intCast {n : ℤ} (hrefused : ¬ PowerRefused a n) (hzero : ¬ (a = 0 ∧ n < 0))
    (ε : Rat) : power ε a n = .ok (a ^ n, []) := by
  unfold power
  dsimp only
  by_cases ha : a = 0
  · subst ha
    have hn : ¬ n < 0 := fun hn => hzero ⟨rfl, hn⟩
    have hneg : ¬ (n : Rat) < 0 := by exact_mod_cast hn
    unfold powerOfZero
    rw [if_pos rfl, if_neg hneg]
    by_cases hn0 : n = 0
    · subst hn0
      rfl
    · have hcast : (n : Rat) ≠ 0 := by exact_mod_cast hn0
      rw [if_neg hcast, zero_zpow n hn0]
  · have hin : ¬ (n < -maxExponent - 1 ∨ maxExponent < n ∨ powerTooLong a n = true) :=
      fun h => hrefused ⟨ha, h⟩
    rw [not_or, not_or] at hin
    obtain ⟨h₁, h₂, h₃⟩ := hin
    rw [if_neg ha, Rat.num_intCast, if_neg, Rat.den_intCast, if_pos rfl]
    simp only [Bool.or_eq_true, decide_eq_true_eq]
    rintro ((h | h) | h)
    · exact h₁ h
    · exact h₂ h
    · exact h₃ h

/-! ## How long a power is -/

/-- A power of `m` has at most as many binary digits as `m`, times the exponent. -/
theorem bitLength_pow_le {m k : ℕ} (hm : 0 < m) (hk : 0 < k) :
    bitLength (m ^ k) ≤ bitLength m * k := by
  rw [bitLength_le_iff (Nat.pow_pos hm), Nat.pow_mul]
  exact Nat.pow_lt_pow_left (bitLength_bounds hm).1 hk.ne'

theorem ratBits_pow_le {k : ℕ} (hx : x ≠ 0) (hk : 0 < k) : ratBits (x ^ k) ≤ ratBits x * k := by
  have hnum : 0 < x.num.natAbs := Int.natAbs_pos.2 (Rat.num_ne_zero.2 hx)
  rw [Numeral.ratBits_le_iff, Rat.num_pow, Rat.den_pow, Int.natAbs_pow]
  constructor
  · exact (bitLength_pow_le hnum hk).trans (Nat.mul_le_mul_right k (le_max_left _ _))
  · exact (bitLength_pow_le x.den_pos hk).trans (Nat.mul_le_mul_right k (le_max_right _ _))

/-- The inverse exchanges the two parts of a number. -/
theorem ratBits_inv (hx : x ≠ 0) : ratBits x⁻¹ = ratBits x := by
  have hnum : x.num ≠ 0 := Rat.num_ne_zero.2 hx
  unfold ratBits
  rw [Rat.num_inv, Rat.den_inv, if_neg hnum, Int.natAbs_mul, Int.natAbs_sign_of_ne_zero hnum, one_mul,
    Int.natAbs_natCast, max_comm]

/-- A negative exponent makes a power neither longer nor shorter. -/
theorem ratBits_zpow (hx : x ≠ 0) (n : ℤ) : ratBits (x ^ n) = ratBits (x ^ n.natAbs) := by
  rcases Int.natAbs_eq n with hn | hn
  · conv_lhs => rw [hn, zpow_natCast]
  · conv_lhs => rw [hn, zpow_neg, zpow_natCast, ratBits_inv (pow_ne_zero _ hx)]

/-- A number of one bit is one or minus one, and so are its powers. -/
theorem ratBits_pow_of_le_one (hx : x ≠ 0) (h : ratBits x ≤ 1) (k : ℕ) : ratBits (x ^ k) = 1 := by
  have hpos : 0 < x.num.natAbs := Int.natAbs_pos.2 (Rat.num_ne_zero.2 hx)
  obtain ⟨hnum, hden⟩ := Numeral.ratBits_le_iff.1 h
  rw [bitLength_le_iff hpos] at hnum
  rw [bitLength_le_iff x.den_pos] at hden
  have hone : x.num.natAbs = 1 := by omega
  have hone' : x.den = 1 := by
    have := x.den_pos
    omega
  unfold ratBits
  rw [Rat.num_pow, Rat.den_pow, Int.natAbs_pow, hone, hone', one_pow]
  rfl

/-- **A power that is taken is not too long.** The bits of the base times the exponent are within the
limit, unless the base has one bit only. -/
theorem ratBits_zpow_le (h : ¬ PowerRefused x n) : ratBits (x ^ n) ≤ maxBits := by
  have hlimit : 1 ≤ maxBits := by decide
  by_cases hx : x = 0
  · subst hx
    by_cases hn : n = 0
    · rw [hn, zpow_zero]
      exact hlimit
    · rw [zero_zpow n hn]
      exact hlimit
  -- the guard looks at the absolute value of the exponent, and only if there are two bits or more
  rw [ratBits_zpow hx]
  by_cases hbits : ratBits x ≤ 1
  · rw [ratBits_pow_of_le_one hx hbits]
    exact hlimit
  rcases Nat.eq_zero_or_pos n.natAbs with hzero | hpos
  · rw [hzero, pow_zero]
    exact hlimit
  have hshort : ¬ powerTooLong x n = true := fun hlong => h ⟨hx, .inr (.inr hlong)⟩
  unfold powerTooLong at hshort
  rw [Bool.and_eq_true, decide_eq_true_eq, decide_eq_true_eq] at hshort
  exact (ratBits_pow_le hx hpos).trans (not_lt.1 fun hlong => hshort ⟨not_le.1 hbits, hlong⟩)

/-! ## What is written -/

/-- **A power that is taken is exact and can be written**: its two parts are within the limit of an
integer radix, whatever the precision and the manner of writing. A negative power of zero is zero
and an incident. -/
theorem write_of_power {ε : ℚ} {v : Valued} (h : power ε x n = .ok v) :
    v = (if x = 0 ∧ n < 0 then (0, [.divisionByZero]) else (x ^ n, [])) ∧
    bitLength v.1.num.natAbs ≤ maxBits ∧ bitLength v.1.den ≤ maxBits ∧
    ∀ β : Radix, β.integer?.isSome → ∀ p asFraction,
      ∃ text, Numeral.write v.1 β p asFraction = .ok text := by
  have hrefused : ¬ PowerRefused x n := by
    intro hrefused
    rw [power_intCast_of_refused hrefused] at h
    cases h
  have hvalue : v = if x = 0 ∧ n < 0 then (0, [.divisionByZero]) else (x ^ n, []) := by
    split
    · rename_i hzero
      obtain ⟨rfl, hn⟩ := hzero
      exact Except.ok.inj (h.symm.trans (power_zero_of_neg hn ε))
    · rename_i hzero
      exact Except.ok.inj (h.symm.trans (power_intCast hrefused hzero ε))
  have hbits : ratBits v.1 ≤ maxBits := by
    rw [hvalue]
    split
    · decide
    · exact ratBits_zpow_le hrefused
  obtain ⟨hnum, hden⟩ := Numeral.ratBits_le_iff.1 hbits
  refine ⟨hvalue, hnum, hden, fun β hβ p asFraction => Numeral.exists_write ?_ asFraction⟩
  unfold Numeral.bitLimit
  rwa [if_pos hβ]

/-- The last negative power of `3 / 2` that is taken: the number has two bits, and the exponent is half
the limit. -/
theorem write_of_power_three_halves :
    power (1 / 10) (3 / 2) (-500000 : ℤ) = .ok ((3 / 2) ^ (-500000 : ℤ), []) ∧
      bitLength ((3 / 2 : ℚ) ^ (-500000 : ℤ)).num.natAbs ≤ maxBits ∧
      ∃ text, Numeral.write ((3 / 2) ^ (-500000 : ℤ)) Radix.ten 30 true = .ok text := by
  have hrefused : ¬ PowerRefused (3 / 2) (-500000) := by
    rintro ⟨-, h | h | h⟩
    · exact absurd h (by decide)
    · exact absurd h (by decide)
    · exact absurd h (by decide +kernel)
  have hpower := power_intCast hrefused (by norm_num) (1 / 10)
  obtain ⟨-, hnum, -, hwrite⟩ := write_of_power hpower
  exact ⟨hpower, hnum, hwrite Radix.ten (by decide) 30 true⟩

end RadixCalc
