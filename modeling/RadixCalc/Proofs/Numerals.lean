import Mathlib.Algebra.BigOperators.Fin
import RadixCalc.Proofs.RoundTrip

/-!
# The numerals of a radix

A text that is no name is read exactly when it is a numeral of the radix with no more fractional
digits than are counted, as the sum of its digits in their places. One that is no numeral is refused
for the first character that keeps it from being one.

* `Digit.place`, `Radix.HasDigit`: the symbols of the digits of a radix, in any case.
* `IsNumeral`, `IsNumeral.concat`: the numerals, and what goes on with one.
* `exists_offender`: the first character that keeps a text from being a numeral.
* `fractionLength`: how many characters follow the separator.
* `positional`, `positional_eq`: digits in their places.
* `Expansion.ofChars_of_isNumeral`, `Expansion.ofChars_of_offender`: the two ways that reading ends.
* `Numeral.read_unnamed`: what becomes of a text that is no name.
-/

namespace RadixCalc

open Text

variable {β : Radix} {c d : Char} {cs w fraction before behind : List Char} {text : String}
  {scope : Scope}

/-! ## Symbols -/

namespace Digit

/-- The place of a character among the symbols, whatever its case. -/
def place (c : Char) : ℕ :=
  symbols.idxOf (capital c)

/-- The value of a symbol among the first ones is its place. -/
theorem value?_of_place_lt {n : ℕ} (hc : capital c ∈ symbols) (hn : place c < n) :
    value? n c = some (place c) := by
  have hmem : capital c ∈ symbols.take n := (List.mem_take_iff_idxOf_lt hc).2 hn
  have hplace : place c = (symbols.take n).idxOf (capital c) := by
    rw [← List.idxOf_append_of_mem hmem, List.take_append_drop]
    rfl
  unfold value?
  cases hvalue : (symbols.take n).idxOf? (capital c) with
  | none => exact absurd hmem (List.idxOf?_eq_none_iff.1 hvalue)
  | some i => rw [hplace, List.idxOf_eq_getD_idxOf?, hvalue, Option.getD_some]

theorem value?_eq_none {n : ℕ} (h : ¬ (capital c ∈ symbols ∧ place c < n)) :
    value? n c = none := by
  refine List.idxOf?_eq_none_iff.2 fun hmem => h ?_
  have hc := List.mem_of_mem_take hmem
  exact ⟨hc, (List.mem_take_iff_idxOf_lt hc).1 hmem⟩

end Digit

namespace Radix

/-- The character is a symbol, in any case, of a digit of the radix. -/
def HasDigit (β : Radix) (c : Char) : Prop :=
  Digit.capital c ∈ Digit.symbols ∧ (Digit.place c : ℤ) < β.value.ceil

instance : Decidable (β.HasDigit c) :=
  inferInstanceAs (Decidable (_ ∧ _))

theorem hasDigit_iff : β.HasDigit c ↔ Digit.capital c ∈ Digit.symbols ∧
    Digit.place c < β.digitCount := by
  unfold HasDigit digitCount
  rw [Int.lt_toNat]

theorem digit_of_hasDigit (h : β.HasDigit c) : β.digit c = .ok (Digit.place c) := by
  obtain ⟨hsymbol, hplace⟩ := hasDigit_iff.1 h
  unfold digit
  rw [Digit.value?_of_place_lt hsymbol hplace]

theorem digit_of_not_hasDigit (h : ¬ β.HasDigit c) :
    β.digit c = .error (.unknownDigit c β.text) := by
  rw [hasDigit_iff] at h
  unfold digit
  rw [Digit.value?_eq_none h]

/-- A separator is no digit. -/
theorem not_hasDigit_of_isSeparator (h : isSeparator c = true) : ¬ β.HasDigit c := by
  have hsep : c = '.' ∨ c = ',' := by simpa [isSeparator] using h
  rintro ⟨hsymbol, -⟩
  revert hsymbol
  rcases hsep with rfl | rfl <;> decide

theorem mapM_digit_of_hasDigit (h : ∀ c ∈ cs, β.HasDigit c) :
    cs.mapM β.digit = .ok (cs.map Digit.place) := by
  induction cs with
  | nil => rfl
  | cons c cs ih =>
    obtain ⟨hc, hcs⟩ := List.forall_mem_cons.1 h
    rw [List.mapM_cons, digit_of_hasDigit hc, ok_bind, ih hcs]
    rfl

/-- Characters are refused for the first one that is no digit. -/
theorem mapM_digit_of_offender (h : ∀ c ∈ before, β.HasDigit c) (hd : ¬ β.HasDigit d)
    (behind : List Char) :
    (before ++ d :: behind).mapM β.digit = .error (.unknownDigit d β.text) := by
  rw [List.mapM_append, mapM_digit_of_hasDigit h, ok_bind, List.mapM_cons, digit_of_not_hasDigit hd]
  rfl

end Radix

/-! ## Numerals -/

/-- **The numerals of a radix**: digits and one separator at most. -/
structure IsNumeral (β : Radix) (cs : List Char) : Prop where
  digit : ∀ c ∈ cs, isSeparator c = true ∨ β.HasDigit c
  separators : cs.countP isSeparator ≤ 1

instance : Decidable (IsNumeral β cs) :=
  decidable_of_iff (cs.all (fun c => isSeparator c || decide (β.HasDigit c)) = true ∧
      cs.countP isSeparator ≤ 1)
    ⟨fun h => ⟨by simpa using h.1, h.2⟩, fun h => ⟨by simpa using h.digit, h.separators⟩⟩

theorem isNumeral_nil : IsNumeral β [] :=
  ⟨List.forall_mem_nil _, Nat.zero_le 1⟩

/-- A numeral goes on with a digit or, if it has no separator, with a separator. -/
theorem IsNumeral.concat (h : IsNumeral β cs)
    (hd : β.HasDigit d ∨ isSeparator d = true ∧ cs.countP isSeparator = 0) :
    IsNumeral β (cs ++ [d]) := by
  refine ⟨List.forall_mem_append.2 ⟨h.digit, List.forall_mem_singleton.2 ?_⟩, ?_⟩
  · rcases hd with hd | ⟨hsep, -⟩
    · exact .inr hd
    · exact .inl hsep
  · rw [List.countP_append, List.countP_singleton]
    rcases hd with hd | ⟨hsep, hnone⟩
    · have hplain : ¬ isSeparator d = true := fun hsep => Radix.not_hasDigit_of_isSeparator hsep hd
      rw [if_neg hplain]
      exact h.separators
    · rw [if_pos hsep, hnone]

/-- The character behind a numeral that makes it none: a second separator, or no digit at all. -/
theorem IsNumeral.offender (h : IsNumeral β cs) (hd : ¬ IsNumeral β (cs ++ [d])) :
    ¬ β.HasDigit d ∧ (cs.countP isSeparator = 0 → isSeparator d = false) := by
  refine ⟨fun hdigit => hd (h.concat (.inl hdigit)), fun hnone => ?_⟩
  rw [← Bool.not_eq_true]
  exact fun hsep => hd (h.concat (.inr ⟨hsep, hnone⟩))

/-- **The first character that keeps a text from being a numeral.** -/
theorem exists_offender (h : ¬ IsNumeral β cs) : ∃ before d behind, cs = before ++ d :: behind ∧
    IsNumeral β before ∧ ¬ IsNumeral β (before ++ [d]) := by
  -- from the end: either the last character is the one, or there is one before it
  induction cs using List.reverseRecOn with
  | nil => exact absurd isNumeral_nil h
  | append_singleton cs d ih =>
    by_cases hcs : IsNumeral β cs
    · exact ⟨cs, d, [], rfl, hcs, h⟩
    · obtain ⟨before, e, behind, rfl, hbefore, he⟩ := ih hcs
      exact ⟨before, e, behind ++ [d], by simp, hbefore, he⟩

/-! ## The separator -/

/-- A text with one separator at most is whole or is divided by it. -/
theorem whole_or_divided (h : cs.countP isSeparator ≤ 1) :
    (∀ c ∈ cs, isSeparator c = false) ∨ ∃ w d fraction, cs = w ++ d :: fraction ∧
      isSeparator d = true ∧ (∀ c ∈ w, isSeparator c = false) ∧
        ∀ c ∈ fraction, isSeparator c = false := by
  by_cases hsep : ∃ d ∈ cs, isSeparator d = true
  · obtain ⟨d, hmem, hd⟩ := hsep
    obtain ⟨w, fraction, rfl⟩ := List.append_of_mem hmem
    rw [List.countP_append, List.countP_cons_of_pos hd] at h
    have hw : w.countP isSeparator = 0 := by omega
    have hfraction : fraction.countP isSeparator = 0 := by omega
    refine .inr ⟨w, d, fraction, rfl, hd, ?_, ?_⟩
    · simpa using List.countP_eq_zero.1 hw
    · simpa using List.countP_eq_zero.1 hfraction
  · push Not at hsep
    exact .inl (by simpa using hsep)

/-! ## Digits in their places -/

/-- The digits of a numeral. -/
def digitsOf (cs : List Char) : List ℕ :=
  (cs.filter (!isSeparator ·)).map Digit.place

theorem filter_whole (hw : ∀ c ∈ w, isSeparator c = false) : w.filter (!isSeparator ·) = w := by
  rw [List.filter_eq_self]
  intro c hc
  rw [hw c hc]
  rfl

theorem digitsOf_whole (hw : ∀ c ∈ w, isSeparator c = false) : digitsOf w = w.map Digit.place := by
  unfold digitsOf
  rw [filter_whole hw]

theorem digitsOf_divided (hw : ∀ c ∈ w, isSeparator c = false) (hd : isSeparator d = true)
    (hfraction : ∀ c ∈ fraction, isSeparator c = false) :
    digitsOf (w ++ d :: fraction) = w.map Digit.place ++ fraction.map Digit.place := by
  unfold digitsOf
  rw [List.filter_append, List.filter_cons_of_neg (by simp [hd]), filter_whole hw,
    filter_whole hfraction, List.map_append]

/-- How many characters follow the first separator. -/
def fractionLength (cs : List Char) : ℕ :=
  ((cs.dropWhile (!isSeparator ·)).drop 1).length

theorem fractionLength_whole (hw : ∀ c ∈ w, isSeparator c = false) : fractionLength w = 0 := by
  unfold fractionLength
  rw [(takeWhile_whole hw).2]
  rfl

theorem fractionLength_divided (hw : ∀ c ∈ w, isSeparator c = false) (hd : isSeparator d = true) :
    fractionLength (w ++ d :: fraction) = fraction.length := by
  unfold fractionLength
  rw [(takeWhile_divided hw hd fraction).2]
  rfl

/-- **Digits in their places**, `k` of them whole: the first one counts `k - 1` powers of the
radix. -/
def positional (β : Radix) (k : ℤ) (ds : List ℕ) : ℚ :=
  ∑ i : Fin ds.length, (ds[i] : ℚ) * β.value ^ (k - 1 - i)

theorem positional_nil (k : ℤ) : positional β k [] = 0 := by
  simp [positional]

theorem positional_cons (k : ℤ) (n : ℕ) (ds : List ℕ) :
    positional β k (n :: ds) = n * β.value ^ (k - 1) + positional β (k - 1) ds := by
  unfold positional
  refine (Fin.sum_univ_succ (n := ds.length) _).trans ?_
  congr 1
  · simp
  · refine Finset.sum_congr rfl fun i _ => ?_
    have hplace : k - 1 - ((i.succ : ℕ) : ℤ) = k - 1 - 1 - (i : ℕ) := by
      rw [Fin.val_succ]
      push_cast
      ring
    rw [hplace]
    rfl

/-- Horner's rule finds the sum, counted in last places. -/
theorem positional_eq (k : ℤ) (ds : List ℕ) :
    positional β k ds = Expansion.horner β ds * β.value ^ (k - ds.length) := by
  have hne : β.value ≠ 0 := β.value_pos.ne'
  induction ds generalizing k with
  | nil => rw [positional_nil, Expansion.horner_nil, zero_mul]
  | cons n ds ih =>
    have hpow : β.value ^ (k - 1) = β.value ^ ds.length * β.value ^ (k - (n :: ds).length) := by
      rw [← zpow_natCast, ← zpow_add₀ hne, List.length_cons]
      congr 1
      push_cast
      ring
    have hplace : k - 1 - ds.length = k - (n :: ds).length := by
      rw [List.length_cons]
      push_cast
      ring
    rw [positional_cons, ih, Expansion.horner_cons, hplace, hpow]
    ring

namespace Expansion

/-- The value of an expansion is the sum of its digits in their places. -/
theorem value_eq_positional (x : Expansion) :
    x.value β = positional β x.whole.length (x.whole ++ x.fraction) := by
  have hlast : (x.whole.length : ℤ) - (x.whole ++ x.fraction).length = -x.fraction.length := by
    rw [List.length_append]
    push_cast
    ring
  rw [positional_eq, hlast, zpow_neg, zpow_natCast, ← div_eq_mul_inv]
  rfl

/-! ## Reading -/

/-- **A numeral** is read as its digits in their places. -/
theorem ofChars_of_isNumeral (h : IsNumeral β cs) : ∃ x, ofChars β cs = .ok x ∧
    x.value β = positional β (cs.takeWhile (!isSeparator ·)).length (digitsOf cs) ∧
      x.fraction.length = fractionLength cs := by
  have hdigit : ∀ c ∈ cs, isSeparator c = false → β.HasDigit c := fun c hc hplain =>
    (h.digit c hc).resolve_left (by rw [hplain]; decide)
  rcases whole_or_divided h.separators with hw | ⟨w, d, fraction, rfl, hd, hw, hfraction⟩
  · refine ⟨⟨cs.map Digit.place, []⟩, ?_, ?_, ?_⟩
    · rw [ofChars_whole hw, Radix.mapM_digit_of_hasDigit fun c hc => hdigit c hc (hw c hc), ok_bind]
    · rw [value_eq_positional, (takeWhile_whole hw).1, digitsOf_whole hw, List.length_map,
        List.append_nil]
    · rw [fractionLength_whole hw, List.length_nil]
  · refine ⟨⟨w.map Digit.place, fraction.map Digit.place⟩, ?_, ?_, ?_⟩
    · rw [ofChars_divided hw hd,
        Radix.mapM_digit_of_hasDigit fun c hc => hdigit c (by simp [hc]) (hw c hc), ok_bind,
        Radix.mapM_digit_of_hasDigit fun c hc => hdigit c (by simp [hc]) (hfraction c hc), ok_bind]
    · rw [value_eq_positional, (takeWhile_divided hw hd fraction).1, digitsOf_divided hw hd hfraction,
        List.length_map]
    · rw [fractionLength_divided hw hd, List.length_map]

/-- **A text is refused** for the first character that keeps it from being a numeral. -/
theorem ofChars_of_offender (h : IsNumeral β before) (hd : ¬ IsNumeral β (before ++ [d]))
    (behind : List Char) :
    ofChars β (before ++ d :: behind) = .error (.unknownDigit d β.text) := by
  obtain ⟨hnone, hsep⟩ := h.offender hd
  have hdigit : ∀ c ∈ before, isSeparator c = false → β.HasDigit c := fun c hc hplain =>
    (h.digit c hc).resolve_left (by rw [hplain]; decide)
  rcases whole_or_divided h.separators with hw | ⟨w, s, fraction, rfl, hs, hw, hfraction⟩
  · -- it is no separator, so it is met among the whole digits
    have hplain : isSeparator d = false := hsep (List.countP_eq_zero.2 (by simpa using hw))
    have hwhole : (before ++ d :: behind).takeWhile (!isSeparator ·) =
        before ++ d :: behind.takeWhile (!isSeparator ·) := by
      rw [List.takeWhile_append_of_pos fun c hc => by rw [hw c hc]; rfl,
        List.takeWhile_cons_of_pos (by rw [hplain]; rfl)]
    unfold ofChars
    rw [hwhole, Radix.mapM_digit_of_offender (fun c hc => hdigit c hc (hw c hc)) hnone, error_bind]
  · rw [List.append_assoc, List.cons_append, ofChars_divided hw hs,
      Radix.mapM_digit_of_hasDigit fun c hc => hdigit c (by simp [hc]) (hw c hc), ok_bind,
      Radix.mapM_digit_of_offender (fun c hc => hdigit c (by simp [hc]) (hfraction c hc)) hnone,
      error_bind]

end Expansion

/-- A text without the minus sign in front, if there is one. -/
def unsigned : List Char → List Char
  | '-' :: cs => cs
  | cs => cs

/-- The sign of a text with a minus sign in front or none. -/
def signOf : List Char → ℚ
  | '-' :: _ => -1
  | _ => 1

namespace Numeral

theorem readChars_eq (cs : List Char) : readChars β cs =
    Expansion.ofChars β (unsigned cs) >>= fun x =>
      x.checkedValue β >>= fun value => .ok (signOf cs * value) := by
  unfold readChars unsigned signOf
  split
  · simp only [neg_one_mul]
    rfl
  · simp only [one_mul]
    exact congrArg _ (funext fun x => (bind_pure (x.checkedValue β)).symm)

section IsNumeral

variable (h : IsNumeral β (unsigned cs))

include h

/-- Characters that spell a numeral behind a minus sign or none. -/
theorem readChars_of_isNumeral (hlen : fractionLength (unsigned cs) ≤ maxFractionDigits) :
    readChars β cs = .ok (signOf cs * positional β
      ((unsigned cs).takeWhile (!isSeparator ·)).length (digitsOf (unsigned cs))) := by
  obtain ⟨x, hx, hvalue, hfraction⟩ := Expansion.ofChars_of_isNumeral h
  rw [readChars_eq, hx, ok_bind, Expansion.checkedValue_of_le (hfraction.trans_le hlen), ok_bind,
    hvalue]

/-- Characters that spell a numeral with too long a fraction. -/
theorem readChars_of_long (hlen : maxFractionDigits < fractionLength (unsigned cs)) :
    readChars β cs = .error (.malformed .tooManyDigits) := by
  obtain ⟨x, hx, -, hfraction⟩ := Expansion.ofChars_of_isNumeral h
  rw [readChars_eq, hx, ok_bind, Expansion.checkedValue_of_lt (hlen.trans_eq hfraction.symm),
    error_bind]

end IsNumeral

/-- Characters that spell none are refused for the first one that keeps them from it. -/
theorem readChars_of_not_isNumeral (h : ¬ IsNumeral β (unsigned cs)) :
    ∃ before d behind, unsigned cs = before ++ d :: behind ∧ IsNumeral β before ∧
      ¬ IsNumeral β (before ++ [d]) ∧ readChars β cs = .error (.unknownDigit d β.text) := by
  obtain ⟨before, d, behind, hcs, hbefore, hd⟩ := exists_offender h
  refine ⟨before, d, behind, hcs, hbefore, hd, ?_⟩
  rw [readChars_eq, hcs, Expansion.ofChars_of_offender hbefore hd, error_bind]

/-- A text is refused for a digit or for the length of its fraction. -/
theorem read_error {f : Fault} (h : read text β scope = .error f) :
    (∃ c, f = .unknownDigit c β.text) ∨ f = .malformed .tooManyDigits := by
  by_cases hblank : trim text = ""
  · rw [read_blank hblank] at h
    cases h
  cases hbound : scope.get? (trim text) with
  | some x =>
    rw [read_bound hblank hbound] at h
    cases h
  | none =>
    rw [read_eq_readChars hblank hbound] at h
    by_cases hnumeral : IsNumeral β (unsigned (trim text).toList)
    · rcases Nat.lt_or_ge maxFractionDigits (fractionLength (unsigned (trim text).toList)) with
        hlong | hlen
      · rw [readChars_of_long hnumeral hlong] at h
        cases h
        exact .inr rfl
      · rw [readChars_of_isNumeral hnumeral hlen] at h
        cases h
    · obtain ⟨-, d, -, -, -, -, hd⟩ := readChars_of_not_isNumeral hnumeral
      rw [hd] at h
      cases h
      exact .inl ⟨d, rfl⟩

/-- **What becomes of a text that is no name.** If it is a numeral of the radix behind a minus sign
or none, its value is the sum of its digits in their places, with that sign; one of more fractional
digits than are counted is refused as such. Any other text is refused for its first character that
does not go on with a numeral, a second separator included. -/
theorem read_unnamed (hvisible : trim text ≠ "") (hfree : scope.get? (trim text) = none) :
    let t := (trim text).toList
    (IsNumeral β (unsigned t) → fractionLength (unsigned t) ≤ maxFractionDigits →
      read text β scope = .ok (signOf t * positional β
        ((unsigned t).takeWhile (!isSeparator ·)).length (digitsOf (unsigned t)))) ∧
    (IsNumeral β (unsigned t) → maxFractionDigits < fractionLength (unsigned t) →
      read text β scope = .error (.malformed .tooManyDigits)) ∧
    (¬ IsNumeral β (unsigned t) → ∃ before d behind, unsigned t = before ++ d :: behind ∧
      IsNumeral β before ∧ ¬ IsNumeral β (before ++ [d]) ∧
        read text β scope = .error (.unknownDigit d β.text)) := by
  intro t
  rw [read_eq_readChars hvisible hfree]
  exact ⟨readChars_of_isNumeral, readChars_of_long, readChars_of_not_isNumeral⟩

/-- A numeral with a comma between blanks and a sign, and one with two separators. -/
theorem read_unnamed_fiveHalves :
    IsNumeral fiveHalves ['1', '0', ',', '2'] ∧
      read " -10,2" fiveHalves (Scope.empty.define "x" 1) = .ok (-33 / 10) ∧
      -1 * positional fiveHalves 2 [1, 0, 2] = -33 / 10 ∧
      ¬ IsNumeral fiveHalves ['1', '.', '0', ',', '2'] ∧
      read "1.0,2" fiveHalves (Scope.empty.define "x" 1) = .error (.unknownDigit ',' "5/2") := by
  have hnumeral : IsNumeral fiveHalves ['1', '0', ',', '2'] := by decide +kernel
  have hsecond : ¬ IsNumeral fiveHalves ['1', '.', '0', ',', '2'] := by decide +kernel
  have hread : read " -10,2" fiveHalves (Scope.empty.define "x" 1) = .ok (-33 / 10) := by
    decide +kernel
  have hvisible : trim " -10,2" ≠ "" := by decide
  have hfree : (Scope.empty.define "x" 1).get? (trim " -10,2") = none := by decide
  have hvalue := (@read_unnamed fiveHalves _ _ hvisible hfree).1 hnumeral (by decide)
  refine ⟨hnumeral, hread, Except.ok.inj (hvalue.symm.trans hread), hsecond, ?_⟩
  decide +kernel

end Numeral

end RadixCalc
