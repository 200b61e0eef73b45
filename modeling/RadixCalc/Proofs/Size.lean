import Mathlib.Algebra.Field.Rat
import RadixCalc.Numeral.Writer
import RadixCalc.Proofs.Pass

/-!
# Which numbers are written

A number is refused by its size alone, whatever the precision and the manner of writing.

* `bitLength_bounds`, `bitLength_le_iff`: a number and its binary digits.
* `ratBits_two_pow`: the bits of a power of two.
* `Numeral.exists_write`, `Numeral.exists_write_error`: a number within the limit of the radix is
  written, and a longer one is refused as too long.
* `Numeral.ratBits_le_of_write`: no other number is written with a point.
* `Numeral.write_error_cases`: a number is refused in no other way.
-/

namespace RadixCalc

/-- A number and its binary digits. -/
theorem bitLength_bounds {n : Nat} (hn : 0 < n) : n < 2 ^ bitLength n ∧ 2 ^ bitLength n ≤ 2 * n := by
  unfold bitLength
  rw [if_neg (by omega), Nat.pow_succ']
  have hlow := Nat.log2_self_le (n := n) (by omega)
  have hhigh := Nat.lt_log2_self (n := n)
  rw [Nat.pow_succ'] at hhigh
  omega

theorem bitLength_le_iff {n k : Nat} (hn : 0 < n) : bitLength n ≤ k ↔ n < 2 ^ k := by
  obtain ⟨hlt, hle⟩ := bitLength_bounds hn
  constructor
  · intro h
    exact Nat.lt_of_lt_of_le hlt (Nat.pow_le_pow_right (by decide) h)
  · intro h
    have hpow : 2 ^ bitLength n < 2 ^ (k + 1) := by
      rw [Nat.pow_succ']
      omega
    exact Nat.le_of_lt_succ ((Nat.pow_lt_pow_iff_right (by decide)).1 hpow)

theorem bitLength_two_pow (k : Nat) : bitLength (2 ^ k) = k + 1 := by
  unfold bitLength
  rw [if_neg (Nat.ne_of_gt (Nat.two_pow_pos k)), Nat.log2_two_pow]

theorem ratBits_two_pow (k : Nat) : ratBits ((2 : Rat) ^ k) = k + 1 := by
  have hnum : ((2 : Rat) ^ k).num.natAbs = 2 ^ k := by
    rw [Rat.num_pow, Int.natAbs_pow]
    rfl
  have hden : ((2 : Rat) ^ k).den = 1 := by
    rw [Rat.den_pow]
    exact Nat.one_pow k
  unfold ratBits
  rw [hnum, hden, bitLength_two_pow]
  exact Nat.max_eq_left (Nat.succ_le_succ (Nat.zero_le k))

namespace Numeral

variable {q : Rat} {β : Radix} {p : Nat}

theorem bitLimit_pos (β : Radix) : 1 ≤ bitLimit β := by
  unfold bitLimit
  split <;> decide

theorem bitLimit_le (β : Radix) : bitLimit β ≤ maxBits := by
  unfold bitLimit
  split <;> decide

/-- Only a number that is short enough is written. -/
theorem ratBits_le_of_write {s : String} (h : writePositional q β p = .ok s) :
    ratBits q ≤ bitLimit β := by
  unfold writePositional at h
  split at h
  · cases h
  · exact Nat.not_lt.1 ‹_›

theorem writePositional_of_le (h : ratBits q ≤ bitLimit β) :
    ∃ text, writePositional q β p = .ok text := by
  unfold writePositional
  rw [if_neg (Nat.not_lt.2 h)]
  exact ⟨_, rfl⟩

theorem writePositional_of_lt (h : bitLimit β < ratBits q) :
    writePositional q β p = .error (.numberTooLong (ratBits q) β.text) := by
  unfold writePositional
  rw [if_pos h]

/-- The bits of an integer are those of its numerator, and one at least. -/
theorem ratBits_intCast (n : Int) : ratBits (n : Rat) = max (bitLength n.natAbs) 1 := rfl

theorem ratBits_le_iff {limit : Nat} :
    ratBits q ≤ limit ↔ bitLength q.num.natAbs ≤ limit ∧ bitLength q.den ≤ limit :=
  Nat.max_le

/-- **A number within the limit of the radix is written.** -/
theorem exists_write (h : ratBits q ≤ bitLimit β) (asFraction : Bool) :
    ∃ text, write q β p asFraction = .ok text := by
  unfold write
  split
  · obtain ⟨hnum, hden⟩ := ratBits_le_iff.1 h
    have hpos := bitLimit_pos β
    obtain ⟨n, hn⟩ := writePositional_of_le (q := q.num) (p := 0)
      (by rw [ratBits_intCast]; exact Nat.max_le.2 ⟨hnum, hpos⟩)
    obtain ⟨d, hd⟩ := writePositional_of_le (q := (q.den : Int)) (p := 0)
      (by rw [ratBits_intCast]; exact Nat.max_le.2 ⟨hden, hpos⟩)
    refine ⟨n ++ "/" ++ d, ?_⟩
    rw [hn, ok_bind]
    show (writePositional (q.den : Int) β 0 >>= _) = _
    rw [hd, ok_bind]
    rfl
  · exact writePositional_of_le h

/-- **A number past the limit of the radix is refused**, in a quotient by the first of its two parts
that is too long. -/
theorem exists_write_error (h : bitLimit β < ratBits q) (asFraction : Bool) :
    ∃ bits, write q β p asFraction = .error (.numberTooLong bits β.text) := by
  unfold write
  split
  · have hpos := bitLimit_pos β
    by_cases hnum : bitLength q.num.natAbs ≤ bitLimit β
    · have hden : bitLimit β < bitLength q.den := by
        have := mt (ratBits_le_iff (q := q)).2 (Nat.not_le.2 h)
        omega
      obtain ⟨n, hn⟩ := writePositional_of_le (q := q.num) (p := 0)
        (by rw [ratBits_intCast]; exact Nat.max_le.2 ⟨hnum, hpos⟩)
      have hd := writePositional_of_lt (q := (q.den : Int)) (p := 0)
        (by rw [ratBits_intCast]; exact Nat.lt_of_lt_of_le hden (Nat.le_max_left _ _))
      refine ⟨ratBits ((q.den : Int) : Rat), ?_⟩
      rw [hn, ok_bind]
      show (writePositional (q.den : Int) β 0 >>= _) = _
      rw [hd, error_bind]
    · have hn := writePositional_of_lt (q := q.num) (p := 0)
        (by rw [ratBits_intCast]; exact Nat.lt_of_lt_of_le (Nat.not_le.1 hnum) (Nat.le_max_left _ _))
      exact ⟨ratBits (q.num : Rat), by rw [hn, error_bind]⟩
  · exact ⟨ratBits q, writePositional_of_lt h⟩

/-- A number is refused for its length only. -/
theorem write_error_cases {asFraction : Bool} {f : Fault} (h : write q β p asFraction = .error f) :
    ∃ bits, f = .numberTooLong bits β.text := by
  rcases Nat.lt_or_ge (bitLimit β) (ratBits q) with hlong | hshort
  · obtain ⟨bits, hwrite⟩ := exists_write_error (p := p) hlong asFraction
    rw [hwrite] at h
    cases h
    exact ⟨bits, rfl⟩
  · obtain ⟨text, hwrite⟩ := exists_write (p := p) hshort asFraction
    rw [hwrite] at h
    cases h

end Numeral

end RadixCalc
