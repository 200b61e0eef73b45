import RadixCalc.Proofs.Places

/-!
# Canonical numerals

What is written is canonical: no whole digit is left out or put in front for nothing, no zero is at
the end of the fraction, and zero has no sign. A number has one such numeral, so that reading and
writing a canonical numeral gives it back, also in a radix that is no integer and in which other
numerals stand for the same number.

* `Expansion.Canonical`, `Expansion.Canonical.eq`: an expansion as it is written, at most one for a
  number.
* `Expansion.canonical_ofRat`, `Expansion.Canonical.ofRat_eq`: what is written is canonical, and what
  is canonical is written.
* `Numeral.exists_canonical`, `Numeral.writePositional_of_canonical`: the same of numerals with a sign.
* `Numeral.write_of_read`: a number read back is written as it was read.
* `Numeral.IsCanonical`, `Numeral.write_canonical`: in an integer radix, the texts that are written.
-/

namespace RadixCalc

open Expansion

variable {β : Radix} {b p : ℕ} {q w : ℚ} {s : String}

/-! ## Symbols -/

namespace Digit

theorem symbol_eq_zero_iff {d : ℕ} (hd : d < count) : symbol d = '0' ↔ d = 0 := by
  have h : ∀ d < count, symbol d = '0' ↔ d = 0 := by decide +kernel
  exact h d hd

theorem map_symbol_eq_some_zero_iff {o : Option ℕ} (h : ∀ d ∈ o, d < count) :
    o.map symbol = some '0' ↔ o = some 0 := by
  cases o with
  | none => exact iff_of_false nofun nofun
  | some d => simp [symbol_eq_zero_iff (h d rfl)]

theorem map_symbol_eq_zero_iff {ds : List ℕ} (h : ∀ d ∈ ds, d < count) :
    ds.map symbol = ['0'] ↔ ds = [0] := by
  rw [List.map_eq_singleton_iff]
  constructor
  · rintro ⟨d, rfl, hd⟩
    rw [(symbol_eq_zero_iff (h d List.mem_cons_self)).1 hd]
  · rintro rfl
    exact ⟨0, rfl, rfl⟩

/-- Symbols are those of digits. -/
theorem exists_map_symbol {n : ℕ} {cs : List Char} (h : ∀ c ∈ cs, c ∈ symbols.take n) :
    ∃ ds : List ℕ, (∀ d ∈ ds, d < n) ∧ cs = ds.map symbol := by
  induction cs with
  | nil => exact ⟨[], List.forall_mem_nil _, rfl⟩
  | cons c cs ih =>
    obtain ⟨hc, hcs⟩ := List.forall_mem_cons.1 h
    obtain ⟨ds, hds, rfl⟩ := ih hcs
    obtain ⟨d, hd, rfl⟩ := List.getElem_of_mem hc
    have hlt : d < n := hd.trans_le (List.length_take_le ..)
    refine ⟨d :: ds, List.forall_mem_cons.2 ⟨hlt, hds⟩, ?_⟩
    rw [List.length_take] at hd
    rw [List.map_cons, symbol, symbol?, List.getElem_take,
      List.getElem?_eq_getElem (hd.trans_le (min_le_right ..)), Option.getD_some]

end Digit

/-! ## Canonical expansions -/

namespace Expansion

variable {x y : Expansion}

/-- **An expansion as it is written** to `p` places: admissible digits, none of the whole ones a zero
in front of another, and none of the fractional ones a zero at the end. -/
structure Canonical (β : Radix) (p : ℕ) (x : Expansion) : Prop where
  admissible : Admissible β (x.whole ++ x.fraction)
  whole_ne_nil : x.whole ≠ []
  whole_eq : x.whole.head? = some 0 → x.whole = [0]
  length_fraction : x.fraction.length ≤ p
  last_ne_zero : x.fraction.getLast? ≠ some 0

/-- The digits of an expansion, with zeros at the end up to `p` fractional ones. -/
def padded (p : ℕ) (x : Expansion) : List ℕ :=
  x.whole ++ (x.fraction ++ List.replicate (p - x.fraction.length) 0)

theorem padded_eq (p : ℕ) (x : Expansion) :
    x.padded p = x.whole ++ x.fraction ++ List.replicate (p - x.fraction.length) 0 :=
  (List.append_assoc ..).symm

theorem length_padded (h : x.fraction.length ≤ p) : (x.padded p).length = x.whole.length + p := by
  simp only [padded, List.length_append, List.length_replicate]
  omega

/-- Zeros at the end make no difference. -/
theorem horner_padded (h : x.fraction.length ≤ p) :
    horner β (x.padded p) = x.value β * β.value ^ p := by
  have hpos := β.value_pos
  have hpow := pow_mul_pow_sub β.value h
  rw [padded_eq, horner_append_zeros, value, ← hpow]
  field_simp

theorem ofDigits_padded (h : x.fraction.length ≤ p) :
    ofDigits (x.padded p) p = ⟨x.whole, x.fraction ++ List.replicate (p - x.fraction.length) 0⟩ := by
  have hlen : (x.padded p).length - p = x.whole.length := by
    rw [length_padded h, Nat.add_sub_cancel]
  unfold ofDigits
  rw [hlen, padded, List.take_left, List.drop_left]

/-- Only the zeros at the end are taken off. -/
theorem trimmed_append_zeros (h : x.fraction.getLast? ≠ some 0) (k : ℕ) :
    trimmed ⟨x.whole, x.fraction ++ List.replicate k 0⟩ = x := by
  have hzeros : ∀ d ∈ List.replicate k 0, (d == 0) = true := fun d hd => by
    simp [List.eq_of_mem_replicate hd]
  have hlast : x.fraction.reverse.dropWhile (· == 0) = x.fraction.reverse := by
    rw [← List.head?_reverse] at h
    cases hrev : x.fraction.reverse with
    | nil => rfl
    | cons d ds =>
      rw [hrev] at h
      exact List.dropWhile_cons_of_neg (by simpa using h)
  unfold trimmed
  dsimp only
  rw [List.reverse_append, List.reverse_replicate, List.dropWhile_append_of_pos hzeros, hlast,
    List.reverse_reverse]

namespace Canonical

theorem placed (h : x.Canonical β p) : Placed β p (x.padded p) where
  admissible := by
    rw [padded_eq]
    exact (admissible_append_zeros _).2 h.admissible
  lt_length := by
    have := List.length_pos_of_ne_nil h.whole_ne_nil
    rw [length_padded h.length_fraction]
    omega
  first_ne_zero hlen hzero := by
    rw [length_padded h.length_fraction] at hlen
    rw [padded, List.head?_append_of_ne_nil _ h.whole_ne_nil] at hzero
    rw [h.whole_eq hzero, List.length_singleton] at hlen
    omega

theorem legible (h : x.Canonical β p) : x.Legible β where
  whole_ne_nil := h.whole_ne_nil
  whole_lt d hd := h.admissible.lt_digitCount d (List.mem_append_left _ hd)
  fraction_lt d hd := h.admissible.lt_digitCount d (List.mem_append_right _ hd)

/-- **What is canonical is written.** -/
theorem ofRat_eq (h : x.Canonical β p) (hq : |q| = x.value β) : (ofRat β q p).trimmed = x := by
  have hplaced : |q| * β.value ^ p = horner β (x.padded p) := by
    rw [horner_padded h.length_fraction, hq]
  rw [ofRat_of_placed h.placed hplaced, ofDigits_padded h.length_fraction,
    trimmed_append_zeros h.last_ne_zero]

/-- **A number has one canonical expansion.** -/
theorem eq (hx : x.Canonical β p) (hy : y.Canonical β p) (h : x.value β = y.value β) : x = y := by
  have hvalue := abs_of_nonneg (value_nonneg (β := β) x)
  exact (hx.ofRat_eq hvalue).symm.trans (hy.ofRat_eq (hvalue.trans h))

end Canonical

theorem canonical_zero : Canonical β p ⟨[0], []⟩ where
  admissible := ⟨by simpa using β.value_pos, trivial⟩
  whole_ne_nil := List.cons_ne_nil _ _
  whole_eq _ := rfl
  length_fraction := Nat.zero_le _
  last_ne_zero := nofun

/-- Zero is written with one digit. -/
theorem Canonical.value_eq_zero_iff (h : x.Canonical β p) :
    x.value β = 0 ↔ x = ⟨[0], []⟩ := by
  have hzero : value β ⟨[0], []⟩ = 0 := by simp [value]
  constructor
  · exact fun hx => h.eq canonical_zero (hx.trans hzero.symm)
  · rintro rfl
    exact hzero

/-- No zero is in front of another whole digit. -/
theorem whole_ofRat_eq (h : (ofRat β q p).whole.head? = some 0) : (ofRat β q p).whole = [0] := by
  have hne := (legible_ofRat (β := β) q p).whole_ne_nil
  have hfirst := (placed_ofRat (β := β) q p).first_ne_zero
  rw [List.length_append, length_fraction_ofRat, List.head?_append_of_ne_nil _ hne] at hfirst
  obtain ⟨d, ds, hds⟩ := List.exists_cons_of_ne_nil hne
  rw [hds] at h hfirst ⊢
  cases h
  cases ds with
  | nil => rfl
  | cons e ds =>
    refine absurd rfl (hfirst ?_)
    rw [List.length_cons, List.length_cons]
    omega

/-- No zero is left at the end of a fraction. -/
theorem last_ne_zero_trimmed (x : Expansion) : x.trimmed.fraction.getLast? ≠ some 0 := by
  unfold trimmed
  dsimp only
  rw [List.getLast?_reverse]
  exact head?_dropWhile_ne _

/-- **What is written is canonical.** -/
theorem canonical_ofRat (q : ℚ) (p : ℕ) : (ofRat β q p).trimmed.Canonical β p := by
  obtain ⟨k, hk⟩ := (ofRat β q p).exists_fraction_eq
  have hadmissible := (placed_ofRat (β := β) q p).admissible
  rw [hk, ← List.append_assoc] at hadmissible
  exact ⟨(admissible_append_zeros k).1 hadmissible, (legible_ofRat q p).whole_ne_nil,
    whole_ofRat_eq, length_fraction_trimmed_le q p, last_ne_zero_trimmed _⟩

end Expansion

/-! ## Numerals with a sign -/

theorem Radix.integer?_of_value (hb : β.value = b) : β.integer? = some b := by
  unfold integer?
  rw [hb]
  rfl

namespace Numeral

variable {x : Expansion} {negative : Bool}

theorem bitLimit_of_value (hb : β.value = b) : bitLimit β = maxBits := by
  unfold bitLimit
  rw [Radix.integer?_of_value hb]
  rfl

/-- A sign is a minus sign or nothing. -/
theorem signed_eq_minus (negative : Bool) (cs : List Char) :
    signed negative cs = minus (negative && cs != ['0']) ++ cs := by
  unfold signed minus
  split <;> rfl

/-- Only zero has the symbol of zero for a text. -/
theorem text_eq_zero_iff (h : x.Canonical β p) : x.text = ['0'] ↔ x.value β = 0 := by
  refine ⟨h.legible.value_of_text_zero, fun hzero => ?_⟩
  rw [h.value_eq_zero_iff.1 hzero]
  decide

/-- **The text of a number** is canonical, and stands for the number cut off. -/
theorem exists_canonical (h : writePositional q β p = .ok s) :
    ∃ (x : Expansion) (negative : Bool), x.Canonical β p ∧ (negative = true → x.value β ≠ 0) ∧
      x.value β = (ofRat β q p).value β ∧ s = String.ofList (minus negative ++ x.text) := by
  have hcanonical := canonical_ofRat (β := β) q p
  have htext := writePositional_eq_ok h
  rw [signed_eq_minus] at htext
  refine ⟨_, _, hcanonical, fun hsign => ?_, value_trimmed _, htext⟩
  rw [ne_eq, ← text_eq_zero_iff hcanonical]
  simpa using (Bool.and_eq_true_iff.1 hsign).2

theorem abs_ite_neg (negative : Bool) (k : ℚ) : |if negative then -k else k| = |k| := by
  split
  · exact abs_neg k
  · rfl

section Canonical

variable (hx : x.Canonical β p) (hsign : negative = true → x.value β ≠ 0)

include hx hsign

/-- The sign is never left out. -/
theorem signed_text : signed negative x.text = minus negative ++ x.text := by
  cases negative with
  | false => rfl
  | true => exact signed_of_ne (mt (text_eq_zero_iff hx).1 (hsign rfl))

/-- A numeral with a sign is read as its value. -/
theorem read_numeral (hp : p ≤ maxPrecision) :
    read (String.ofList (minus negative ++ x.text)) β Scope.empty =
      .ok (if negative then -x.value β else x.value β) := by
  rw [← signed_text hx hsign]
  exact read_signed hx.legible (length_le_maxFractionDigits hp hx.length_fraction) negative

/-- **A canonical numeral is what is written of its value.** -/
theorem writePositional_of_canonical (hw : w = if negative then -x.value β else x.value β)
    (hshort : ratBits w ≤ bitLimit β) :
    writePositional w β p = .ok (String.ofList (minus negative ++ x.text)) := by
  have hnonneg := value_nonneg (β := β) x
  have habs : |w| = x.value β := by rw [hw, abs_ite_neg, abs_of_nonneg hnonneg]
  have hnegative : decide (w < 0) = negative := by
    rw [hw]
    cases negative with
    | false => exact decide_eq_false hnonneg.not_gt
    | true => exact decide_eq_true (neg_neg_of_pos (hnonneg.lt_of_ne' (hsign rfl)))
  unfold writePositional
  rw [if_neg (Nat.not_lt.2 hshort), hx.ofRat_eq habs, hnegative, signed_text hx hsign]

end Canonical

/-- What is read back is the number cut off, up to the sign. -/
theorem abs_of_read (h : write q β p false = .ok s) (hread : read s β Scope.empty = .ok w) :
    |w| = (ofRat β q (min p maxPrecision)).value β := by
  obtain ⟨x, negative, hx, hsign, hvalue, rfl⟩ := exists_canonical h
  rw [read_numeral hx hsign (min_le_right ..)] at hread
  rw [← Except.ok.inj hread, abs_ite_neg, abs_of_nonneg (value_nonneg x), hvalue]

/-- A number read back is written as it was read, unless it is too long. -/
theorem write_of_read_of_short (h : write q β p false = .ok s)
    (hread : read s β Scope.empty = .ok w) (hshort : ratBits w ≤ bitLimit β) :
    write w β p false = .ok s := by
  obtain ⟨x, negative, hx, hsign, -, rfl⟩ := exists_canonical h
  rw [read_numeral hx hsign (min_le_right ..)] at hread
  exact writePositional_of_canonical hx hsign (Except.ok.inj hread).symm hshort

/-- **A number read back is written as it was read**, in any radix: the digits of what was cut off are
the digits it was cut off to. Only a number that is too long is not written again. -/
theorem write_of_read (h : write q β p false = .ok s) :
    ∃ w, read s β Scope.empty = .ok w ∧ (∀ t, write w β p false = .ok t → t = s) ∧
      (ratBits w ≤ bitLimit β → write w β p false = .ok s) := by
  obtain ⟨x, negative, hx, hsign, -, rfl⟩ := exists_canonical h
  have hread := read_numeral hx hsign (min_le_right ..)
  refine ⟨_, hread, fun t ht => ?_, write_of_read_of_short h hread⟩
  have hagain := write_of_read_of_short h hread (ratBits_le_of_write ht)
  exact Except.ok.inj (ht.symm.trans hagain)

/-- `- 22 / 7` in the radix `5 / 2` to three places leaves `- 781 / 250`, which is written as it
was. -/
theorem write_of_read_five_halves :
    write (-22 / 7) fiveHalves 3 false = .ok "-10.111" ∧
    read "-10.111" fiveHalves Scope.empty = .ok (-781 / 250) ∧
    write (-781 / 250) fiveHalves 3 false = .ok "-10.111" := by
  have hwrite : write (-22 / 7) fiveHalves 3 false = .ok "-10.111" := by decide +kernel
  obtain ⟨w, hread, -, hagain⟩ := write_of_read hwrite
  have hvalue : read "-10.111" fiveHalves Scope.empty = .ok (-781 / 250) := by decide +kernel
  rw [hvalue] at hread
  cases hread
  exact ⟨hwrite, hvalue, hagain (by decide +kernel)⟩

/-! ## Canonical texts -/

/-- **The parts of a canonical text** in base `b`, to `p` places: symbols of the base, a zero in front
of no other whole symbol and at the end of no fraction, and no sign in front of zero. -/
structure CanonicalParts (b p : ℕ) (negative : Bool) (whole fraction : List Char) : Prop where
  symbols : ∀ c ∈ whole ++ fraction, c ∈ Digit.symbols.take b
  whole_ne_nil : whole ≠ []
  whole_eq : whole.head? = some '0' → whole = ['0']
  length_fraction : fraction.length ≤ p
  last_ne_zero : fraction.getLast? ≠ some '0'
  sign : negative = true → ¬ (whole = ['0'] ∧ fraction = [])

/-- **A canonical text**: a minus sign or none, whole symbols, and a point in front of the fraction if
there is one. -/
def IsCanonical (b p : ℕ) (s : String) : Prop :=
  ∃ negative whole fraction, CanonicalParts b p negative whole fraction ∧
    s.toList = minus negative ++ (whole ++ if fraction.isEmpty then [] else '.' :: fraction)

/-- The symbols of an expansion are canonical if its digits are, in an integer radix. -/
theorem canonicalParts_iff (hb : β.value = b) (hlt : ∀ d ∈ x.whole ++ x.fraction, d < b) :
    CanonicalParts b p negative (x.whole.map Digit.symbol) (x.fraction.map Digit.symbol) ↔
      x.Canonical β p ∧ (negative = true → x.value β ≠ 0) := by
  have hle : b ≤ Digit.count := Radix.digitCount_of_value hb ▸ Radix.digitCount_le
  have hcount : ∀ d ∈ x.whole ++ x.fraction, d < Digit.count := fun d hd => (hlt d hd).trans_le hle
  obtain ⟨hwhole, hfraction⟩ := List.forall_mem_append.1 hcount
  have hfirst : (x.whole.map Digit.symbol).head? = some '0' ↔ x.whole.head? = some 0 := by
    rw [List.head?_map]
    exact Digit.map_symbol_eq_some_zero_iff fun d hd => hwhole d (List.mem_of_mem_head? hd)
  have hlast : (x.fraction.map Digit.symbol).getLast? = some '0' ↔ x.fraction.getLast? = some 0 := by
    rw [List.getLast?_map]
    exact Digit.map_symbol_eq_some_zero_iff fun d hd => hfraction d (List.mem_of_mem_getLast? hd)
  have hzero := Digit.map_symbol_eq_zero_iff hwhole
  have hexpansion : x = ⟨[0], []⟩ ↔ x.whole = [0] ∧ x.fraction = [] := by
    rw [← Expansion.mk.injEq]
  constructor
  · rintro ⟨-, hne, heq, hlen, hend, hsign⟩
    rw [hfirst, hzero] at heq
    rw [List.length_map] at hlen
    rw [ne_eq, hlast] at hend
    rw [hzero, List.map_eq_nil_iff, ← hexpansion] at hsign
    have hx : x.Canonical β p :=
      ⟨admissible_of_lt hb hlt, mt List.map_eq_nil_iff.2 hne, heq, hlen, hend⟩
    exact ⟨hx, fun hnegative => mt hx.value_eq_zero_iff.1 (hsign hnegative)⟩
  · rintro ⟨hx, hsign⟩
    refine ⟨fun c hc => ?_, mt List.map_eq_nil_iff.1 hx.whole_ne_nil, ?_, ?_, ?_, ?_⟩
    · rw [← List.map_append] at hc
      obtain ⟨d, hd, rfl⟩ := List.mem_map.1 hc
      exact Digit.symbol_mem_take hle (hlt d hd)
    · rw [hfirst, hzero]
      exact hx.whole_eq
    · rw [List.length_map]
      exact hx.length_fraction
    · rw [ne_eq, hlast]
      exact hx.last_ne_zero
    · rw [hzero, List.map_eq_nil_iff, ← hexpansion]
      exact fun hnegative => mt hx.value_eq_zero_iff.2 (hsign hnegative)

/-- The text of an expansion, from its symbols. -/
theorem text_eq (x : Expansion) : x.text = x.whole.map Digit.symbol ++
    if (x.fraction.map Digit.symbol).isEmpty then [] else '.' :: x.fraction.map Digit.symbol := by
  rw [List.isEmpty_map]
  rfl

/-- **Canonical texts are those of canonical expansions**, in an integer radix. -/
theorem isCanonical_iff (hb : β.value = b) : IsCanonical b p s ↔
    ∃ (x : Expansion) (negative : Bool), x.Canonical β p ∧ (negative = true → x.value β ≠ 0) ∧
      s = String.ofList (minus negative ++ x.text) := by
  constructor
  · rintro ⟨negative, whole, fraction, hparts, htext⟩
    obtain ⟨hwhole, hfraction⟩ := List.forall_mem_append.1 hparts.symbols
    obtain ⟨ds, hds, rfl⟩ := Digit.exists_map_symbol hwhole
    obtain ⟨es, hes, rfl⟩ := Digit.exists_map_symbol hfraction
    have hlt : ∀ d ∈ ds ++ es, d < b := List.forall_mem_append.2 ⟨hds, hes⟩
    obtain ⟨hx, hsign⟩ := (canonicalParts_iff (x := ⟨ds, es⟩) hb hlt).1 hparts
    refine ⟨_, negative, hx, hsign, ?_⟩
    rw [← String.toList_inj, String.toList_ofList, htext, text_eq]
  · rintro ⟨x, negative, hx, hsign, rfl⟩
    have hlt : ∀ d ∈ x.whole ++ x.fraction, d < b := fun d hd =>
      (hx.admissible.lt_digitCount d hd).trans_eq (Radix.digitCount_of_value hb)
    refine ⟨negative, _, _, (canonicalParts_iff hb hlt).2 ⟨hx, hsign⟩, ?_⟩
    rw [String.toList_ofList, text_eq]

/-- **Canonical texts are what is written**, in an integer radix. Each is read, and what is read is
written as that text unless it is too long; and nothing else is written. -/
theorem write_canonical (hb : β.value = b) (hp : p ≤ maxPrecision) :
    (∀ s, IsCanonical b p s → ∃ w, read s β Scope.empty = .ok w ∧
      (ratBits w ≤ maxBits → write w β p false = .ok s)) ∧
    ∀ q s, write q β p false = .ok s → IsCanonical b p s := by
  have hplaces (q : ℚ) : write q β p false = writePositional q β p := by
    rw [write, Bool.false_and, if_neg Bool.false_ne_true, min_eq_left hp]
  simp only [isCanonical_iff hb, hplaces, ← bitLimit_of_value hb]
  constructor
  · rintro s ⟨x, negative, hx, hsign, rfl⟩
    exact ⟨_, read_numeral hx hsign hp, writePositional_of_canonical hx hsign rfl⟩
  · intro q s h
    obtain ⟨x, negative, hx, hsign, -, htext⟩ := exists_canonical h
    exact ⟨x, negative, hx, hsign, htext⟩

/-- A negative number with a fraction, in the radix 36. -/
theorem write_canonical_root : IsCanonical 36 2 "-ROOT.9" ∧
    read "-ROOT.9" Radix.thirtySix Scope.empty = .ok (-5166837 / 4) ∧
    write (-5166837 / 4) Radix.thirtySix 2 false = .ok "-ROOT.9" := by
  have hparts : CanonicalParts 36 2 true ['R', 'O', 'O', 'T'] ['9'] :=
    ⟨by simp [Digit.symbols], by decide, by decide, by decide, by decide, by decide⟩
  have hcanonical : IsCanonical 36 2 "-ROOT.9" := ⟨true, _, _, hparts, by decide⟩
  have hvalue : read "-ROOT.9" Radix.thirtySix Scope.empty = .ok (-5166837 / 4) := by
    decide +kernel
  obtain ⟨w, hread, hwrite⟩ :=
    (write_canonical (β := Radix.thirtySix) rfl (by decide)).1 _ hcanonical
  rw [hvalue] at hread
  cases hread
  exact ⟨hcanonical, hvalue, hwrite (by decide +kernel)⟩

end Numeral

end RadixCalc
