import RadixCalc.Proofs.Places

/-!
# Whole numerals in any radix

The digits of a whole number, found from the leading place downwards and without a fraction, stand
for the number in an integer radix. In any other radix a fraction may be left over: the digits stand
for the number only if it is a sum of digits and powers of the radix of which every tail is less than
the power in front of it.

* `Radix.IsWhole`: the numbers that such digits stand for.
* `horner_greedyDigits_iff`: when the digits of a whole number stand for it.
* `Radix.isWhole_of_integer`, `Radix.lt_of_isWhole`: all whole numbers in an integer radix, and only
  the digits in a radix less than its own denominator.
* `Numeral.read_quotient`: reading back the two sides of a quotient.
-/

namespace RadixCalc

open Expansion

variable {β : Radix} {b n d : ℕ} {ds es : List ℕ} {q : ℚ} {p : ℕ} {s : String}

/-- **A number with admissible digits** and no fraction. -/
def Radix.IsWhole (β : Radix) (n : ℕ) : Prop :=
  ∃ ds, Admissible β ds ∧ horner β ds = n

/-- **The digits of a whole number** without a fraction stand for it when it is whole in the radix,
and only then. -/
theorem horner_greedyDigits_iff : horner β (greedyDigits β n 1 0) = n ↔ β.IsWhole n := by
  constructor
  · exact fun h => ⟨_, (placed_greedyDigits Nat.one_pos 0).admissible, h⟩
  · rintro ⟨ds, hds, hn⟩
    have hplaced := hds.dropWhile.placed (p := 0) (head?_dropWhile_ne ds)
    have hvalue : horner β ((ds.dropWhile (· == 0)).leftpad (0 + 1) 0) = n := by
      rw [horner_leftpad, horner_dropWhile, hn]
    have hn' : (n : ℚ) / (1 : ℕ) * β.value ^ 0 = n := by
      rw [Nat.cast_one, div_one, pow_zero, mul_one]
    rw [greedyDigits_of_placed Nat.one_pos hplaced (hn'.trans hvalue.symm), hvalue]

/-! ## Which numbers are whole -/

/-- **All whole numbers** have digits of their own in an integer radix. -/
theorem Radix.isWhole_of_integer (hb : β.value = b) (n : ℕ) : β.IsWhole n :=
  ⟨digits b n, admissible_digits hb n, horner_digits hb n⟩

theorem Radix.coprime : β.numer.Coprime β.denom := by
  have hnum : β.numer = β.value.num.natAbs := by
    have := Rat.num_nonneg.2 β.value_pos.le
    unfold numer
    omega
  rw [hnum]
  exact β.value.reduced

/-- The first of several digits of a whole number is a multiple of the denominator of the radix. -/
theorem denom_dvd_of_horner (hds : ds ≠ []) (hn : horner β (d :: ds) = n) : β.denom ∣ d := by
  obtain ⟨m, hm⟩ := exists_horner_mul_pow (β := β) ds
  have hsum : n * β.denom ^ ds.length = d * β.numer ^ ds.length + β.denom * m := by
    have hscaled : (n * β.denom ^ ds.length : ℚ) = d * β.numer ^ ds.length + β.denom * m := by
      rw [← hn, ← hm, horner_cons, Radix.numer_eq, mul_pow]
      ring
    exact_mod_cast hscaled
  have hlen : ds.length ≠ 0 := by simpa using hds
  have hleft : β.denom ∣ n * β.denom ^ ds.length := Dvd.dvd.mul_left (dvd_pow_self _ hlen) n
  have hdvd : β.denom ∣ d * β.numer ^ ds.length := by
    rw [hsum] at hleft
    exact (Nat.dvd_add_left ⟨m, rfl⟩).1 hleft
  exact (Radix.coprime.symm.pow_right _).dvd_of_dvd_mul_right hdvd

/-- **A radix less than its denominator** has no whole numbers but its digits: the first one of
several digits would be too large. -/
theorem Radix.lt_of_isWhole (hsmall : β.value < β.denom) (h : β.IsWhole n) : (n : ℚ) < β.value := by
  obtain ⟨ds, hds, hn⟩ := h
  have hpos := β.value_pos
  have hds := hds.dropWhile
  rw [← horner_dropWhile] at hn
  have hfirst := List.head?_dropWhile_not (· == 0) ds
  cases hdigits : ds.dropWhile (· == 0) with
  | nil =>
    rw [hdigits, horner_nil] at hn
    rwa [← hn]
  | cons d ds' =>
    rw [hdigits] at hds hn hfirst
    by_cases hnil : ds' = []
    · subst hnil
      have hlt := hds.1
      rwa [hn, List.length_nil, zero_add, pow_one] at hlt
    · have hd : d ≠ 0 := by simpa using hfirst
      have hle : (β.denom : ℚ) ≤ d := by
        exact_mod_cast Nat.le_of_dvd (Nat.pos_of_ne_zero hd) (denom_dvd_of_horner hnil hn)
      -- the digit is below the radix, so below the denominator
      have hlt : (d : ℚ) < β.value := by
        refine lt_of_mul_lt_mul_right ?_ (pow_nonneg hpos.le ds'.length)
        have h := hds.1
        rw [horner_cons, pow_succ'] at h
        linarith [horner_nonneg (β := β) ds']
      linarith

/-! ## Reading back a quotient -/

namespace Numeral

variable {x : ℚ} {text left right : String}

/-- What the text of a whole number is read back as: the number cut off towards zero, which is the
number itself exactly if it is whole in the radix. -/
structure ReadsWhole (β : Radix) (n : ℤ) (text : String) (x : ℚ) : Prop where
  plain : '/' ∉ text.toList
  read_eq : read text β Scope.empty = .ok x
  exact : x = n ↔ β.IsWhole n.natAbs
  sign : x = 0 ∨ SignType.sign x = SignType.sign (n : ℚ)
  le : |x| ≤ |(n : ℚ)|
  lt : |(n : ℚ)| < |x| + 1

theorem value_ofRat_intCast_iff (n : ℤ) :
    (ofRat β n 0).value β = |(n : ℚ)| ↔ β.IsWhole n.natAbs := by
  have hden : (n : ℚ).den = 1 := Rat.den_intCast n
  cases hinteger : β.integer? with
  | some r =>
    have hr := Radix.value_of_integer? hinteger
    exact iff_of_true (value_ofRat_of_natural hr (abs_mul_pow_of_den hr hden 0))
      (Radix.isWhole_of_integer hr _)
  | none =>
    have hvalue : (ofRat β n 0).value β = horner β (greedyDigits β n.natAbs 1 0) := by
      unfold value
      rw [length_fraction_ofRat, pow_zero, div_one, ofRat, whole_append_fraction, Rat.num_intCast,
        hden]
      unfold quotientDigits
      rw [hinteger]
    have habs : |(n : ℚ)| = n.natAbs := by rw [Nat.cast_natAbs, Int.cast_abs]
    rw [hvalue, habs]
    exact horner_greedyDigits_iff

/-- No symbol is the sign of a quotient. -/
theorem slash_not_mem_signed {y : Expansion} (h : y.Legible β) (negative : Bool) :
    '/' ∉ signed negative y.text := by
  have htext : '/' ∉ y.text := fun hmem =>
    absurd (h.isWordChar_of_mem_text _ hmem) (by decide +kernel)
  unfold signed
  split
  · exact List.not_mem_cons_of_ne_of_not_mem (by decide) htext
  · exact htext

/-- **The text of a whole number**, read back in its radix. -/
theorem exists_readsWhole {n : ℤ} (h : writePositional (n : ℚ) β 0 = .ok text) :
    ∃ x, ReadsWhole β n text x := by
  have htext := writePositional_eq_ok h
  have hlegible := (legible_ofRat (β := β) (n : ℚ) 0).trimmed
  have hplaces : 0 ≤ maxPrecision := Nat.zero_le _
  have hlen := length_le_maxFractionDigits hplaces (length_fraction_trimmed_le (β := β) (n : ℚ) 0)
  obtain ⟨x, hread, hsign, hle, hlt⟩ := exists_read (β := β) hplaces (n : ℚ)
  refine ⟨x, ?_, htext ▸ hread, ?_, hsign, by linarith, ?_⟩
  · rw [htext, String.toList_ofList]
    exact slash_not_mem_signed hlegible _
  · -- the sign goes with the number, so only the digits count
    rw [← value_ofRat_intCast_iff]
    have hvalue := (read_signed hlegible hlen ((n : ℚ) < 0)).symm.trans hread
    rw [value_trimmed] at hvalue
    rw [← Except.ok.inj hvalue]
    by_cases hn : (n : ℚ) < 0
    · rw [if_pos (by simpa using hn), abs_of_neg hn, neg_eq_iff_eq_neg]
    · rw [if_neg (by simpa using hn), abs_of_nonneg (not_lt.1 hn)]
  · rw [pow_zero, inv_one] at hlt
    linarith

/-- **Reading back a number written as a quotient**, in any radix. The text has one `/`. What stands
on its two sides is read back as numerator and denominator cut off towards zero, each of them exactly
if it is whole in the radix: always in an integer radix, and only if both are less than the radix in
a radix less than its own denominator. -/
theorem read_quotient (hden : q.den ≠ 1) (h : write q β p true = .ok s) :
    ∃ left right x y, s = left ++ "/" ++ right ∧
      ReadsWhole β q.num left x ∧ ReadsWhole β q.den right y ∧
      (x = q.num ∧ y = q.den ↔ β.IsWhole q.num.natAbs ∧ β.IsWhole q.den) ∧
      (∀ b : ℕ, β.value = b → x = q.num ∧ y = q.den) ∧
      (β.value < β.denom → x = q.num ∧ y = q.den → |(q.num : ℚ)| < β.value ∧ q.den < β.value) := by
  rcases write_quotient_cases h with ⟨hwhole, -⟩ | ⟨-, left, right, hleft, hright, rfl⟩
  · exact absurd hwhole hden
  obtain ⟨x, hx⟩ := exists_readsWhole hleft
  obtain ⟨y, hy⟩ := exists_readsWhole (n := q.den) hright
  have hexact : y = q.den ↔ β.IsWhole q.den := hy.exact
  have hiff := and_congr hx.exact hexact
  refine ⟨left, right, x, y, rfl, hx, hy, hiff, fun b hb => ?_, fun hsmall hread => ?_⟩
  · exact hiff.2 ⟨Radix.isWhole_of_integer hb _, Radix.isWhole_of_integer hb _⟩
  · obtain ⟨hnumer, hdenom⟩ := hiff.1 hread
    rw [← Int.cast_abs, ← Nat.cast_natAbs]
    exact ⟨Radix.lt_of_isWhole hsmall hnumer, Radix.lt_of_isWhole hsmall hdenom⟩

/-- In the radix `5 / 2` both parts of `- 6 / 5` are whole. -/
theorem read_quotient_five_halves :
    write (-6 / 5) fiveHalves 30 true = .ok "-21/20" ∧
    ∃ left right x y, "-21/20" = left ++ "/" ++ right ∧
      ReadsWhole fiveHalves (-6) left x ∧ ReadsWhole fiveHalves 5 right y ∧ x = -6 ∧ y = 5 := by
  have hwrite : write (-6 / 5) fiveHalves 30 true = .ok "-21/20" := by decide +kernel
  have hnum : (-6 / 5 : ℚ).num = -6 := by decide +kernel
  have hden : (-6 / 5 : ℚ).den = 5 := by decide +kernel
  have hsix : fiveHalves.IsWhole 6 :=
    ⟨[2, 1], ⟨by decide +kernel, by decide +kernel, trivial⟩, by decide +kernel⟩
  have hfive : fiveHalves.IsWhole 5 :=
    ⟨[2, 0], ⟨by decide +kernel, by decide +kernel, trivial⟩, by decide +kernel⟩
  obtain ⟨left, right, x, y, htext, hx, hy, hexact, -, -⟩ := read_quotient (by decide +kernel) hwrite
  rw [hnum, hden] at hexact
  rw [hnum] at hx
  rw [hden] at hy
  obtain ⟨hleft, hright⟩ := hexact.2 ⟨hsix, hfive⟩
  exact ⟨hwrite, left, right, x, y, htext, hx, hy, hleft, hright⟩

/-- The radix `9 / 2`, of five digits. -/
def nineHalves : Radix := ⟨9 / 2, by decide +kernel, by decide +kernel⟩

/-- In the radix `9 / 2` the numerator of `94 / 13` is not read back, although there is a numeral
that stands for it. -/
theorem not_read_quotient_nine_halves :
    write (94 / 13) nineHalves 30 true = .ok "1002/24" ∧
    read "1002" nineHalves Scope.empty = .ok (745 / 8) ∧ (745 / 8 : ℚ) ≠ (94 / 13 : ℚ).num ∧
    read "424" nineHalves Scope.empty = .ok 94 ∧ read "24" nineHalves Scope.empty = .ok 13 := by
  decide +kernel

end Numeral

end RadixCalc
