import Mathlib.Data.Nat.Digits.Lemmas
import RadixCalc.Proofs.RoundTrip
import RadixCalc.Proofs.Words

/-!
# Results as quotients

In an integer radix every whole number has digits of its own, so that a rational written as a
quotient of two whole numerals is the value of its text.

* `Expansion.horner_eq_ofDigits`: Horner's rule in an integer radix gives a natural number.
* `Expansion.value_ofRat_of_natural`: what fits the places is not cut off.
* `Numeral.write_quotient_cases`: a numeral, or two of them with `/` between.
* `Numeral.WholeText`, `Numeral.wholeText_of_writePositional`: the text of a whole number.
* `yields_write`: the text of a rational, evaluated.
-/

namespace RadixCalc

variable {β : Radix} {b p : ℕ} {q : ℚ} {s : String} {scope : Scope}

/-- An integer radix has as many digits as its value. -/
theorem Radix.digitCount_of_value (hb : β.value = b) : β.digitCount = b := by
  have hceil : β.value.ceil = b := by
    rw [hb]
    exact Rat.ceil_intCast b
  unfold digitCount
  rw [hceil, Int.toNat_natCast]

namespace Expansion

/-! ## Whole numbers -/

/-- **Horner's rule in an integer radix** gives a natural number. -/
theorem horner_eq_ofDigits (hb : β.value = b) (ds : List ℕ) :
    horner β ds = (Nat.ofDigits b ds.reverse : ℕ) := by
  induction ds with
  | nil => simp
  | cons d ds ih =>
    rw [horner_cons, ih, hb, List.reverse_cons, Nat.ofDigits_append, Nat.ofDigits_singleton,
      List.length_reverse]
    push_cast
    ring

/-- **What fits the places is not cut off**, in an integer radix. -/
theorem horner_ofRat_of_natural {n : ℕ} (hb : β.value = b) (hn : |q| * β.value ^ p = n) :
    horner β ((ofRat β q p).whole ++ (ofRat β q p).fraction) = n := by
  obtain ⟨-, hle, hlt⟩ := truncates_ofRat (β := β) q p
  rw [hn, horner_eq_ofDigits hb] at hle hlt
  rw [horner_eq_ofDigits hb, eq_of_natCast_bounds hle hlt le_rfl (lt_add_one _)]

theorem value_ofRat_of_natural {n : ℕ} (hb : β.value = b) (hn : |q| * β.value ^ p = n) :
    (ofRat β q p).value β = |q| := by
  have hpos := β.value_pos
  unfold value
  rw [horner_ofRat_of_natural hb hn, length_fraction_ofRat, ← hn]
  field_simp

/-- A whole number fits any places. -/
theorem abs_mul_pow_of_den (hb : β.value = b) (hq : q.den = 1) (p : ℕ) :
    |q| * β.value ^ p = (q.num.natAbs * b ^ p : ℕ) := by
  rw [abs_eq_natAbs_div_den, hq, hb, Nat.cast_one, div_one]
  push_cast
  rfl

/-- A whole number has no fraction left when the zeros at its end are taken off. -/
theorem fraction_trimmed_of_den (hb : β.value = b) (hq : q.den = 1) (p : ℕ) :
    (ofRat β q p).trimmed.fraction = [] := by
  have hcount := Radix.digitCount_of_value hb
  have htwo := Radix.two_le_of_value hb
  have hlen : (ofRat β q p).fraction.reverse.length = p := by
    rw [List.length_reverse, length_fraction_ofRat]
  set whole := (ofRat β q p).whole with hwhole
  set fraction := (ofRat β q p).fraction with hfraction
  have hlt : Nat.ofDigits b fraction.reverse < b ^ p := by
    rw [← hlen]
    refine Nat.ofDigits_lt_base_pow_length htwo fun d hd => ?_
    exact hcount ▸ (legible_ofRat q p).fraction_lt d (List.mem_reverse.1 hd)
  have hsum : Nat.ofDigits b whole.reverse * b ^ p + Nat.ofDigits b fraction.reverse =
      q.num.natAbs * b ^ p := by
    have h := horner_ofRat_of_natural hb (abs_mul_pow_of_den hb hq p)
    rw [horner_append, horner_eq_ofDigits hb, horner_eq_ofDigits hb, length_fraction_ofRat, hb] at h
    exact_mod_cast h
  -- both sums are whole numbers of `b ^ p`, and the fraction is less than one
  have hzero : Nat.ofDigits b fraction.reverse = 0 := by
    have hmod := congrArg (· % b ^ p) hsum
    simpa [Nat.mod_eq_of_lt hlt] using hmod
  unfold trimmed
  dsimp only
  rw [List.reverse_eq_nil_iff, List.dropWhile_eq_nil_iff]
  intro d hd
  simpa using Nat.digits_zero_of_eq_zero (by omega) hzero d hd

end Expansion

namespace Numeral

open Expansion

/-- **What is written as a quotient**: a whole number is one numeral, and any other has the numerals
of its two parts with `/` between. -/
theorem write_quotient_cases (h : write q β p true = .ok s) :
    (q.den = 1 ∧ writePositional q β (min p maxPrecision) = .ok s) ∨
    (q.den ≠ 1 ∧ ∃ n d, writePositional (q.num : ℚ) β 0 = .ok n ∧
      writePositional (q.den : ℚ) β 0 = .ok d ∧ s = n ++ "/" ++ d) := by
  by_cases hden : q.den = 1
  · refine .inl ⟨hden, ?_⟩
    unfold write at h
    rwa [if_neg (by simp [hden])] at h
  · refine .inr ⟨hden, ?_⟩
    unfold write at h
    rw [if_pos (by simp [hden])] at h
    obtain ⟨n, hn, h⟩ := bind_eq_ok_iff.1 h
    obtain ⟨d, hd, h⟩ := bind_eq_ok_iff.1 h
    cases h
    exact ⟨n, d, hn, hd, rfl⟩

/-- Symbols of the first `b`, one at least, that spell the number. -/
structure WholeText (β : Radix) (b : ℕ) (n : ℚ) (w : List Char) : Prop where
  ne_nil : w ≠ []
  symbols : ∀ c ∈ w, c ∈ Digit.symbols.take b
  spells : readChars β w = .ok n

/-- **The text of a whole number** in an integer radix: symbols that spell its absolute value, behind
a minus sign if it is negative. -/
theorem wholeText_of_writePositional (hb : β.value = b) (hq : q.den = 1)
    (h : writePositional q β p = .ok s) :
    ∃ w, WholeText β b |q| w ∧ s = String.ofList (minus (q < 0) ++ w) := by
  set x := (ofRat β q p).trimmed with hx
  have hlegible : x.Legible β := (legible_ofRat q p).trimmed
  have hvalue : x.value β = |q| := by
    rw [hx, value_trimmed, value_ofRat_of_natural hb (abs_mul_pow_of_den hb hq p)]
  have hwhole : x.fraction = [] := fraction_trimmed_of_den hb hq p
  have htext : x.text = x.whole.map Digit.symbol := by
    unfold text
    rw [hwhole, List.isEmpty_nil, if_pos rfl, List.append_nil]
  have hlen : x.fraction.length ≤ maxFractionDigits := by
    rw [hwhole]
    exact Nat.zero_le _
  refine ⟨x.text, ⟨?_, ?_, hvalue ▸ readChars_text hlegible hlen⟩, ?_⟩
  · rw [htext, ne_eq, List.map_eq_nil_iff]
    exact hlegible.whole_ne_nil
  · rw [htext, ← Radix.digitCount_of_value hb]
    exact mem_take_of_mem_map hlegible.whole_lt
  · rw [writePositional_eq_ok h, ← hx]
    unfold signed minus
    by_cases hneg : q < 0
    · -- a negative number is not written as zero
      have hzero : x.text ≠ ['0'] := by
        intro hzero
        have := hlegible.value_of_text_zero hzero
        rw [hvalue, abs_eq_zero] at this
        exact hneg.ne this
      simp [hneg, hzero]
    · simp [hneg]

end Numeral

/-! ## Evaluating what is written -/

/-- The words of a text are those among its tokens. -/
def IsWordOf (w text : String) : Prop :=
  ∃ ts, Token.scan text = .ok ts ∧ Token.word w ∈ ts

theorem isWordChar_of_mem_symbols {c : Char} (h : c ∈ Digit.symbols.take b) :
    isWordChar c = true := by
  have hall : Digit.symbols.all isWordChar = true := by decide +kernel
  exact List.all_eq_true.1 hall c (List.mem_of_mem_take h)

/-- A numeral is a word. -/
theorem Expansion.Legible.isWordChar_of_mem_text {x : Expansion} (h : x.Legible β) :
    ∀ c ∈ x.text, isWordChar c = true :=
  h.forall_mem_spell (P := fun c => isWordChar c = true) (by decide) fun _ hd =>
    isWordChar_of_mem_symbols (Digit.symbol_mem_take Radix.digitCount_le hd)

namespace Numeral

variable {n : ℚ} {w w' : List Char} {text : String} {ts : List Token} {e : Expr}

theorem WholeText.isWordChar (h : WholeText β b n w) : ∀ c ∈ w, isWordChar c = true :=
  fun c hc => isWordChar_of_mem_symbols (h.symbols c hc)

/-- A whole number is read from its text, unless that is the name of a value. -/
theorem WholeText.read_eq (h : WholeText β b n w) (hfree : scope.get? (String.ofList w) = none) :
    read (String.ofList w) β scope = .ok n :=
  ((read_word h.ne_nil h.isWordChar β scope).2 hfree).trans h.spells

/-- The words among the tokens of a text that is understood are the words of the text. -/
theorem isWordOf_of_understood (h : Understood text ts 0 e) (htrim : Text.trim text = text)
    (hw : Token.word (String.ofList w) ∈ ts) : IsWordOf (String.ofList w) text :=
  ⟨ts, htrim ▸ h.cut, hw⟩

theorem word_mem_signedTokens (negative : Bool) (w : List Char) :
    Token.word (String.ofList w) ∈ signedTokens negative w := by
  cases negative with
  | false => exact List.mem_cons_self
  | true => exact List.mem_cons_of_mem _ List.mem_cons_self

/-- The text of a whole number is evaluated to it. -/
theorem WholeText.yields (h : WholeText β b n w) (negative : Bool)
    (hs : ∃ settings, scope.settings = .ok settings)
    (hfree : ∀ w', IsWordOf w' (String.ofList (minus negative ++ w)) → scope.get? w' = none) :
    Yields (String.ofList (minus negative ++ w)) β scope (if negative then -n else n) [] := by
  obtain ⟨settings, hs⟩ := hs
  have htrim := (solid_append.2 ⟨solid_minus negative, solid_of_isWordChar h.isWordChar⟩).trim_eq
  have hword := isWordOf_of_understood (understood_signedWord negative h.ne_nil h.isWordChar)
    htrim (word_mem_signedTokens negative w)
  exact yields_signedWord negative h.ne_nil h.isWordChar hs (h.read_eq (hfree _ hword))

/-- The texts of two whole numbers with `/` between are evaluated to their quotient. -/
theorem WholeText.yields_quotient {d : ℚ} (h : WholeText β b n w) (h' : WholeText β b d w')
    (hd : d ≠ 0) (negative : Bool) (hs : ∃ settings, scope.settings = .ok settings)
    (hfree : ∀ v, IsWordOf v (String.ofList (minus negative ++ (w ++ '/' :: w'))) →
      scope.get? v = none) :
    Yields (String.ofList (minus negative ++ (w ++ '/' :: w'))) β scope
      ((if negative then -n else n) / d) [] := by
  obtain ⟨settings, hs⟩ := hs
  have htrim := (solid_quotient negative h.isWordChar h'.isWordChar).trim_eq
  have hunderstood := understood_quotient negative h.ne_nil h.isWordChar h'.ne_nil h'.isWordChar
  have hword := isWordOf_of_understood hunderstood htrim
    (List.mem_append_left _ (word_mem_signedTokens negative w))
  have hword' := isWordOf_of_understood hunderstood htrim
    (List.mem_append_right _ (List.mem_cons_of_mem _ List.mem_cons_self))
  exact RadixCalc.yields_quotient negative h.ne_nil h.isWordChar h'.ne_nil h'.isWordChar hs
    (h.read_eq (hfree _ hword)) (h'.read_eq (hfree _ hword')) hd

/-- The text of a number that is not whole: those of its two parts with `/` between. -/
theorem quotientText_of_write {t : String} (hb : β.value = b)
    (hn : writePositional (q.num : ℚ) β 0 = .ok s)
    (hd : writePositional (q.den : ℚ) β 0 = .ok t) :
    ∃ w w', WholeText β b |(q.num : ℚ)| w ∧ WholeText β b q.den w' ∧
      s ++ "/" ++ t = String.ofList (minus (q < 0) ++ (w ++ '/' :: w')) := by
  obtain ⟨w, hw, rfl⟩ := wholeText_of_writePositional hb (Rat.den_intCast _) hn
  obtain ⟨w', hw', rfl⟩ := wholeText_of_writePositional hb (Rat.den_natCast _) hd
  rw [Nat.abs_cast] at hw'
  refine ⟨w, w', hw, hw', ?_⟩
  have hsign : decide ((q.num : ℚ) < 0) = decide (q < 0) := by simp
  have hsign' : decide ((q.den : ℚ) < 0) = false := by simp
  have hslash : ("/" : String).toList = ['/'] := rfl
  rw [hsign, hsign', ← String.toList_inj]
  simp only [String.toList_append, String.toList_ofList, hslash, minus, List.append_assoc,
    List.cons_append, List.nil_append, Bool.false_eq_true, if_false]

end Numeral

open Numeral

/-- **A rational written as a quotient in an integer radix is the value of its text**, exactly and
with no incident, in every scope that binds none of the words of the text. The text is a whole
numeral, or two of them with `/` between, behind a minus sign if the number is negative. -/
theorem yields_write (hb : β.value = b) (h : write q β p true = .ok s)
    (hs : ∃ settings, scope.settings = .ok settings)
    (hfree : ∀ w, IsWordOf w s → scope.get? w = none) :
    Yields s β scope q [] ∧
    ((q.den = 1 ∧ ∃ w, WholeText β b |q| w ∧ s = String.ofList (minus (q < 0) ++ w)) ∨
      (q.den ≠ 1 ∧ ∃ w w', WholeText β b |(q.num : ℚ)| w ∧ WholeText β b q.den w' ∧
        s = String.ofList (minus (q < 0) ++ (w ++ '/' :: w')))) := by
  have hsigned (x : ℚ) : (if decide (x < 0) = true then -|x| else |x|) = x := by
    by_cases hx : x < 0
    · rw [if_pos (by simpa using hx), abs_of_neg hx, neg_neg]
    · rw [if_neg (by simpa using hx), abs_of_nonneg (not_lt.1 hx)]
  rcases write_quotient_cases h with ⟨hden, hwrite⟩ | ⟨hden, n, d, hn, hd, rfl⟩
  · obtain ⟨w, hw, rfl⟩ := wholeText_of_writePositional hb hden hwrite
    have hline := hw.yields (q < 0) hs hfree
    rw [hsigned] at hline
    exact ⟨hline, .inl ⟨hden, w, hw, rfl⟩⟩
  · obtain ⟨w, w', hw, hw', htext⟩ := quotientText_of_write hb hn hd
    rw [htext] at hfree ⊢
    have hline := hw.yields_quotient hw' (by simp) (q < 0) hs hfree
    have hsign : decide (q < 0) = decide ((q.num : ℚ) < 0) := by simp
    rw [hsign, hsigned, Rat.num_div_den, ← hsign] at hline
    exact ⟨hline, .inr ⟨hden, w, w', hw, hw', rfl⟩⟩

/-- The radix 36, with the figures and the Latin letters as digits. -/
def Radix.thirtySix : Radix := ⟨36, by decide, by decide⟩

/-- In the radix 36 the numerals of a quotient may spell the names of both functions. -/
theorem yields_sqrt_over_root :
    write (-1341065 / 1291709) Radix.thirtySix 0 true = .ok "-SQRT/ROOT" ∧
    Yields "-SQRT/ROOT" Radix.thirtySix Scope.initial (-1341065 / 1291709) [] := by
  have hwrite : write (-1341065 / 1291709) Radix.thirtySix 0 true = .ok "-SQRT/ROOT" := by
    decide +kernel
  have hsettings : Scope.initial.settings = .ok ⟨30, Radix.ten, Radix.ten, false, none⟩ := by
    decide +kernel
  have hscan : Token.scan "-SQRT/ROOT" = .ok [.op .sub, .word "SQRT", .op .div, .word "ROOT"] := by
    decide +kernel
  refine ⟨hwrite, (yields_write (b := 36) rfl hwrite ⟨_, hsettings⟩ ?_).1⟩
  rintro w ⟨ts, hts, hw⟩
  rw [hscan] at hts
  cases hts
  have hnames : w = "SQRT" ∨ w = "ROOT" := by simpa using hw
  rcases hnames with rfl | rfl <;> decide +kernel

end RadixCalc
