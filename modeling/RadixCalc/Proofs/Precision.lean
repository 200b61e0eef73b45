import RadixCalc.Proofs.Canonical

/-!
# Digits to more places

The places of a number do not depend on how many of them are found: to more places it has the same
whole digits, and the same fractional digits with more of them behind. The two searches run side by
side, their weights and what is left scaled by the same power of the radix.

* `div_mod_scaled`, `prefix_greedyFrom`: one place of both searches, and all places of the shorter one.
* `prefix_greedyDigits`, `length_quotientDigits`, `digits_kept_of_le`: the digits of a quotient to
  fewer places and to more.
* `Expansion.prefix_fraction_trimmed`, `Expansion.prefix_text_ofRat`: the symbols of a rational, without
  the zeros at the end.
* `Numeral.prefix_write`: the text to fewer places is the beginning of the text to more, but for the
  sign of a number that is shown as zero.
-/

namespace RadixCalc

open Expansion

variable {β : Radix} {n d p q : ℕ}

/-! ## Two searches side by side -/

/-- **One place of both searches.** With what is left and the weight scaled by the same power, the
digit is the same, and what is left behind it is scaled as before. -/
theorem div_mod_scaled (c places j rest : ℕ) :
    rest * β.numer ^ j / (c * β.numer ^ (places + j)) = rest / (c * β.numer ^ places) ∧
      rest * β.numer ^ j % (c * β.numer ^ (places + j)) =
        rest % (c * β.numer ^ places) * β.numer ^ j := by
  have hscale : 0 < β.numer ^ j := Nat.pow_pos β.numer_pos
  have hweight : c * β.numer ^ (places + j) = c * β.numer ^ places * β.numer ^ j := by
    rw [pow_add, mul_assoc]
  rw [hweight]
  exact ⟨Nat.mul_div_mul_right _ _ hscale, Nat.mul_mod_mul_right _ _ _⟩

/-- **A search to fewer places finds the first digits of a search to more.** -/
theorem prefix_greedyFrom (c places j rest : ℕ) :
    greedyFrom β places rest (c * β.numer ^ places) <+:
      greedyFrom β (places + j) (rest * β.numer ^ j) (c * β.numer ^ (places + j)) := by
  induction places generalizing c rest with
  | zero =>
    -- the last place of the shorter search, at which the other one goes on if there are places left
    have hdigit := (div_mod_scaled (β := β) c 0 j rest).1
    rw [zero_add, pow_zero, mul_one] at hdigit ⊢
    rw [greedyFrom]
    cases j with
    | zero => rw [greedyFrom, hdigit]
    | succ j =>
      rw [greedyFrom_succ, hdigit]
      exact List.prefix_append [rest / c] _
  | succ places ih =>
    obtain ⟨hdigit, hrest⟩ := div_mod_scaled (β := β) c (places + 1) j rest
    rw [Nat.add_right_comm] at hdigit hrest ⊢
    rw [greedyFrom_succ, greedyFrom_succ, hdigit, hrest, List.prefix_cons_inj]
    exact ih _ _

/-- **The largest digits that fit, to fewer places and to more.** -/
theorem prefix_greedyDigits (h : p ≤ q) : greedyDigits β n d p <+: greedyDigits β n d q := by
  obtain ⟨j, rfl⟩ := Nat.exists_eq_add_of_le h
  rw [greedyDigits_eq, greedyDigits_eq, pow_add β.numer p j, ← mul_assoc, ← add_assoc]
  exact prefix_greedyFrom _ _ _ _

/-! ## The digits of a quotient -/

theorem prefix_quotientDigits (hd : 0 < d) (h : p ≤ q) :
    quotientDigits β n d p <+: quotientDigits β n d q := by
  rw [quotientDigits_eq_greedyDigits hd, quotientDigits_eq_greedyDigits hd]
  exact prefix_greedyDigits h

/-- The number of whole digits does not depend on the places. -/
theorem length_quotientDigits (hd : 0 < d) (p : ℕ) :
    (quotientDigits β n d p).length = leadingExponent β n d + 1 + p := by
  rw [quotientDigits_eq_greedyDigits hd, length_greedyDigits, Nat.add_right_comm]

/-- Two sequences of digits, of which one begins with the other, cut in the same place. -/
theorem ofDigits_of_prefix {ds es : List ℕ} {k : ℕ} (h : ds <+: es) (hds : ds.length = k + p)
    (hes : es.length = k + q) : (ofDigits ds p).whole = (ofDigits es q).whole ∧
      (ofDigits ds p).fraction <+: (ofDigits es q).fraction := by
  unfold ofDigits
  rw [hds, hes, Nat.add_sub_cancel, Nat.add_sub_cancel]
  refine ⟨?_, h.drop k⟩
  obtain ⟨rest, rfl⟩ := h
  rw [List.take_append_of_le_length (by omega)]

/-- The whole digits and the fractional ones, to fewer places and to more. -/
theorem ofDigits_quotientDigits (hd : 0 < d) (h : p ≤ q) :
    (ofDigits (quotientDigits β n d p) p).whole = (ofDigits (quotientDigits β n d q) q).whole ∧
      (ofDigits (quotientDigits β n d p) p).fraction <+:
        (ofDigits (quotientDigits β n d q) q).fraction :=
  ofDigits_of_prefix (prefix_quotientDigits hd h) (length_quotientDigits hd p)
    (length_quotientDigits hd q)

/-- **To more places a number keeps the digits it has to fewer**, in every radix: the digits to fewer
places are the first ones, as many of them are whole, and these are the same. There may be any number
of places; those of a number that is written fit 32 bits, by `Numeral.places_lt_of_write`. -/
theorem digits_kept_of_le (hd : 0 < d) (h : p ≤ q) :
    quotientDigits β n d p <+: quotientDigits β n d q ∧
    (quotientDigits β n d p).length = leadingExponent β n d + 1 + p ∧
    (quotientDigits β n d q).length = leadingExponent β n d + 1 + q ∧
    (ofDigits (quotientDigits β n d p) p).whole = (ofDigits (quotientDigits β n d q) q).whole ∧
    (ofDigits (quotientDigits β n d p) p).fraction <+:
      (ofDigits (quotientDigits β n d q) q).fraction :=
  ⟨prefix_quotientDigits hd h, length_quotientDigits hd p, length_quotientDigits hd q,
    ofDigits_quotientDigits hd h⟩

/-- `22 / 7` in the radix `5 / 2`, to one place and to three. -/
theorem digits_kept_five_halves :
    quotientDigits Numeral.fiveHalves 22 7 1 = [1, 0, 1] ∧
    quotientDigits Numeral.fiveHalves 22 7 3 = [1, 0, 1, 1, 1] ∧
    quotientDigits Numeral.fiveHalves 22 7 1 <+: quotientDigits Numeral.fiveHalves 22 7 3 ∧
    (ofDigits (quotientDigits Numeral.fiveHalves 22 7 1) 1).whole =
      (ofDigits (quotientDigits Numeral.fiveHalves 22 7 3) 3).whole := by
  obtain ⟨hbegins, -, -, hwhole, -⟩ := digits_kept_of_le (β := Numeral.fiveHalves) (n := 22) (d := 7)
    (p := 1) (q := 3) (by decide) (by decide)
  exact ⟨by decide +kernel, by decide +kernel, hbegins, hwhole⟩

/-! ## Expansions and texts -/

namespace Expansion

variable {x y : Expansion} {v : ℚ}

/-- Without the zeros at its end, a fraction still begins with a shorter one. -/
theorem prefix_fraction_trimmed (h : x.fraction <+: y.fraction) :
    x.trimmed.fraction <+: y.trimmed.fraction := by
  obtain ⟨k, hk⟩ := x.exists_fraction_eq
  obtain ⟨l, hl⟩ := y.exists_fraction_eq
  rw [hk, hl] at h
  have hx := (List.prefix_append _ _).trans h
  rcases List.prefix_or_prefix_of_prefix hx (List.prefix_append _ _) with hshort | ⟨zeros, hzeros⟩
  · exact hshort
  -- otherwise the shorter fraction goes on with zeros, and it does not end with one
  rw [← hzeros, List.prefix_append_right_inj, List.prefix_replicate_iff] at hx
  rw [← hzeros]
  cases hlast : zeros.getLast? with
  | none => rw [List.getLast?_eq_none_iff.1 hlast, List.append_nil]
  | some d =>
    have hd : d = 0 := List.eq_of_mem_replicate (hx.2 ▸ List.mem_of_getLast? hlast)
    refine absurd ?_ (last_ne_zero_trimmed x)
    rw [← hzeros, List.getLast?_append, hlast, hd, Option.some_or]

/-- The symbols of an expansion, when more of its fraction is shown. -/
theorem prefix_text (hwhole : x.whole = y.whole) (h : x.fraction <+: y.fraction) :
    x.text <+: y.text := by
  unfold text
  rw [hwhole]
  split
  · rw [List.append_nil]
    exact List.prefix_append _ _
  · rename_i hx
    have hy : ¬ y.fraction.isEmpty := by
      rw [List.isEmpty_iff] at hx ⊢
      rintro hy
      exact hx (List.prefix_nil.1 (hy ▸ h))
    rw [if_neg hy, List.prefix_append_right_inj, List.prefix_cons_inj]
    exact h.map _

theorem prefix_text_ofRat (v : ℚ) (h : p ≤ q) :
    (ofRat β v p).trimmed.text <+: (ofRat β v q).trimmed.text := by
  obtain ⟨hwhole, hfraction⟩ := ofDigits_quotientDigits (β := β) (n := v.num.natAbs) v.den_pos h
  exact prefix_text hwhole (prefix_fraction_trimmed hfraction)

end Expansion

namespace Numeral

variable {v : ℚ} {s : String} {cs ds : List Char} {asFraction : Bool}

/-- Of a text and a longer one either both have the sign, or the shorter one is that of zero. -/
theorem prefix_signed (hne : cs ≠ []) (h : cs <+: ds) (negative : Bool) :
    signed negative cs <+: signed negative ds ∨
      negative = true ∧ cs = ['0'] ∧ ['-', '0'] <+: signed negative ds := by
  cases negative with
  | false => exact .inl h
  | true =>
    by_cases hcs : cs = ['0']
    · by_cases hds : ds = ['0']
      · exact .inl (by rw [hcs, hds])
      · rw [signed_of_ne hds]
        exact .inr ⟨rfl, hcs, (List.prefix_cons_inj _).2 (hcs ▸ h)⟩
    · have hds : ds ≠ ['0'] := by
        rintro rfl
        obtain hnil | ⟨rest, hrest, hend⟩ := List.prefix_cons_iff.1 h
        · exact hne hnil
        · exact hcs (by rw [hrest, List.prefix_nil.1 hend])
      rw [signed_of_ne hcs, signed_of_ne hds]
      exact .inl ((List.prefix_cons_inj _).2 h)

/-- **To more places a number keeps the symbols that are shown to fewer**, the sign included unless
the number is negative and shown as zero. -/
theorem prefix_write (h : p ≤ q) (hs : write v β p asFraction = .ok s) :
    ∃ t, write v β q asFraction = .ok t ∧
      (s.toList <+: t.toList ∨ v < 0 ∧ s = "0" ∧ "-0".toList <+: t.toList) := by
  unfold write at hs ⊢
  split
  · rename_i hquotient
    -- a quotient of two whole numerals has no places
    rw [if_pos hquotient] at hs
    exact ⟨s, hs, .inl List.prefix_rfl⟩
  · rename_i hplaces
    rw [if_neg hplaces] at hs
    obtain ⟨t, ht⟩ := writePositional_of_le (p := min q maxPrecision) (ratBits_le_of_write hs)
    refine ⟨t, ht, ?_⟩
    have hbegins := prefix_text_ofRat (β := β) v (min_le_min_right maxPrecision h)
    have hne := (legible_ofRat (β := β) v (min p maxPrecision)).trimmed.text_ne_nil
    rw [writePositional_eq_ok hs, writePositional_eq_ok ht, String.toList_ofList,
      String.toList_ofList]
    rcases prefix_signed hne hbegins (v < 0) with hsigned | ⟨hnegative, hzero, hsigned⟩
    · exact .inl hsigned
    · refine .inr ⟨of_decide_eq_true hnegative, ?_, hsigned⟩
      rw [hzero]
      unfold signed
      rw [hnegative]
      rfl

/-- A third below zero, in base ten. -/
example : write (-1 / 3) Radix.ten 0 false = .ok "0" ∧
    write (-1 / 3) Radix.ten 1 false = .ok "-0.3" := by
  decide +kernel

end Numeral

end RadixCalc
