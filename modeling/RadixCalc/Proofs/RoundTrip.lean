import Mathlib.Data.Sign.Basic
import Mathlib.Tactic.FieldSimp
import Mathlib.Tactic.Linarith
import Mathlib.Tactic.Positivity
import RadixCalc.Numeral.Reader
import RadixCalc.Proofs.Digits
import RadixCalc.Proofs.Line

/-!
# Reading back what is written

A number written as a numeral is read back as the number cut off towards zero.

* `Digit.value?_symbol`: a symbol is read as its digit.
* `Expansion.Legible`: digits of the radix, at least one of them whole.
* `Expansion.value_trimmed`: the zeros at the end of a fraction do not count.
* `Expansion.value_ofRat_le`, `Expansion.lt_value_ofRat`: where the expansion of a number is cut off.
* `Spells`, `Expansion.ofChars_spell`, `Numeral.readChars_spell`: characters for digits, and the
  expansion that they are read as.
* `Numeral.read_signed`: the symbols of an expansion are read as that expansion.
* `Numeral.read_write`: the number that is read back.
-/

namespace RadixCalc

variable {β : Radix}

/-! ## Symbols -/

namespace Digit

/-- A symbol is read as its digit. -/
theorem value?_symbol {n d : ℕ} (hn : n ≤ count) (hd : d < n) : value? n (symbol d) = some d := by
  have h : ∀ n ≤ count, ∀ d < n, value? n (symbol d) = some d := by decide +kernel
  exact h n hn d hd

/-- No symbol is a blank, a separator or a sign. -/
theorem symbol_plain {d : ℕ} (hd : d < count) :
    Text.isBlank (symbol d) = false ∧ isSeparator (symbol d) = false ∧ symbol d ≠ '-' := by
  have h : ∀ d < count,
      Text.isBlank (symbol d) = false ∧ isSeparator (symbol d) = false ∧ symbol d ≠ '-' := by
    decide +kernel
  exact h d hd

theorem symbol_mem_take {n d : ℕ} (hn : n ≤ count) (hd : d < n) :
    symbol d ∈ symbols.take n := by
  have hlt : d < (symbols.take n).length := by
    rw [List.length_take, length_symbols]
    omega
  have hget : symbol d = (symbols.take n)[d] := by
    unfold symbol symbol?
    rw [List.getElem_take, List.getElem?_eq_getElem, Option.getD_some]
  rw [hget]
  exact List.getElem_mem hlt

end Digit

theorem Radix.digitCount_le : β.digitCount ≤ Digit.count := by
  have := β.ceil_le
  unfold Radix.digitCount
  omega

/-- **Characters for the digits of the radix**: each is read as its digit, and none is a separator or
a sign. -/
structure Spells (β : Radix) (f : ℕ → Char) : Prop where
  value? : ∀ d < β.digitCount, Digit.value? β.digitCount (f d) = some d
  plain : ∀ d < β.digitCount, isSeparator (f d) = false ∧ f d ≠ '-'

theorem spells_symbol : Spells β Digit.symbol where
  value? _ hd := Digit.value?_symbol Radix.digitCount_le hd
  plain _ hd := (Digit.symbol_plain (hd.trans_le Radix.digitCount_le)).2

theorem mapM_digit {f : ℕ → Char} (hf : Spells β f) {ds : List ℕ} (h : ∀ d ∈ ds, d < β.digitCount) :
    (ds.map f).mapM β.digit = .ok ds := by
  induction ds with
  | nil => rfl
  | cons d ds ih =>
    obtain ⟨hd, hds⟩ := List.forall_mem_cons.1 h
    have hdigit : β.digit (f d) = .ok d := by
      unfold Radix.digit
      rw [hf.value? d hd]
    rw [List.map_cons, List.mapM_cons, hdigit, ok_bind, ih hds, ok_bind]
    rfl

/-! ## The separator -/

theorem takeWhile_whole {w : List Char} (hw : ∀ c ∈ w, isSeparator c = false) :
    w.takeWhile (!isSeparator ·) = w ∧ w.dropWhile (!isSeparator ·) = [] := by
  have hall : ∀ c ∈ w, (!isSeparator c) = true := fun c hc => by rw [hw c hc]; rfl
  exact ⟨List.takeWhile_eq_self_iff.2 hall, List.dropWhile_eq_nil_iff.2 hall⟩

/-- The first separator divides a text. -/
theorem takeWhile_divided {w : List Char} {d : Char} (hw : ∀ c ∈ w, isSeparator c = false)
    (hd : isSeparator d = true) (fraction : List Char) : (w ++ d :: fraction).takeWhile (!isSeparator ·) = w ∧
      (w ++ d :: fraction).dropWhile (!isSeparator ·) = d :: fraction := by
  have hall : ∀ c ∈ w, (!isSeparator c) = true := fun c hc => by rw [hw c hc]; rfl
  rw [List.takeWhile_append_of_pos hall, List.dropWhile_append_of_pos hall,
    List.takeWhile_cons_of_neg (by simp [hd]), List.dropWhile_cons_of_neg (by simp [hd]),
    List.append_nil]
  exact ⟨rfl, rfl⟩

/-! ## Expansions -/

namespace Expansion

variable {x : Expansion} {q : ℚ} {p : ℕ}

/-- **Digits of the radix, at least one of them whole.** -/
structure Legible (β : Radix) (x : Expansion) : Prop where
  whole_ne_nil : x.whole ≠ []
  whole_lt : ∀ d ∈ x.whole, d < β.digitCount
  fraction_lt : ∀ d ∈ x.fraction, d < β.digitCount

/-- What is taken off the end of a fraction is a number of zeros. -/
theorem exists_fraction_eq (x : Expansion) :
    ∃ k, x.fraction = x.trimmed.fraction ++ List.replicate k 0 := by
  set zeros := x.fraction.reverse.takeWhile (· == 0) with hzeros
  have hall : ∀ d ∈ zeros, d = 0 := fun d hd => by
    simpa using List.mem_takeWhile_imp hd
  refine ⟨zeros.length, ?_⟩
  have hsplit := congrArg List.reverse
    (List.takeWhile_append_dropWhile (p := (· == 0)) (l := x.fraction.reverse))
  rw [List.reverse_append, List.reverse_reverse, ← hzeros, List.eq_replicate_of_mem hall,
    List.reverse_replicate] at hsplit
  exact hsplit.symm

theorem Legible.trimmed (h : x.Legible β) : x.trimmed.Legible β where
  whole_ne_nil := h.whole_ne_nil
  whole_lt := h.whole_lt
  fraction_lt := by
    obtain ⟨k, hk⟩ := x.exists_fraction_eq
    intro d hd
    exact h.fraction_lt d (hk ▸ List.mem_append_left _ hd)

/-- **The zeros at the end of a fraction do not count.** -/
theorem value_trimmed (x : Expansion) : x.trimmed.value β = x.value β := by
  obtain ⟨k, hk⟩ := x.exists_fraction_eq
  have hpos := β.value_pos
  unfold value
  rw [hk, ← List.append_assoc, horner_append_zeros, List.length_append, List.length_replicate,
    pow_add]
  field_simp
  rfl

theorem value_nonneg (x : Expansion) : 0 ≤ x.value β := by
  have hpos := β.value_pos
  exact div_nonneg (horner_nonneg _) (by positivity)

theorem checkedValue_of_le (h : x.fraction.length ≤ maxFractionDigits) :
    x.checkedValue β = .ok (x.value β) :=
  if_neg (Nat.not_lt.2 h)

theorem checkedValue_of_lt (h : maxFractionDigits < x.fraction.length) :
    x.checkedValue β = .error (.malformed .tooManyDigits) :=
  if_pos h

/-! ### The expansion of a number -/

theorem whole_append_fraction (ds : List ℕ) (p : ℕ) :
    (ofDigits ds p).whole ++ (ofDigits ds p).fraction = ds :=
  List.take_append_drop _ ds

theorem length_fraction_ofRat (q : ℚ) (p : ℕ) : (ofRat β q p).fraction.length = p := by
  have := length_le_quotientDigits (β := β) (n := q.num.natAbs) (d := q.den) p
  unfold ofRat ofDigits
  rw [List.length_drop]
  omega

theorem abs_eq_natAbs_div_den (q : ℚ) : |q| = (q.num.natAbs : ℚ) / q.den := by
  rw [Nat.cast_natAbs, Int.cast_abs, ← Nat.abs_cast q.den, ← abs_div, Rat.num_div_den]

theorem length_fraction_trimmed_le (q : ℚ) (p : ℕ) :
    (ofRat β q p).trimmed.fraction.length ≤ p := by
  have hlen := length_fraction_ofRat (β := β) q p
  obtain ⟨k, hk⟩ := (ofRat β q p).exists_fraction_eq
  rw [hk, List.length_append] at hlen
  omega

/-- No fraction is written that is too long to be read. -/
theorem length_le_maxFractionDigits (hp : p ≤ maxPrecision) (h : x.fraction.length ≤ p) :
    x.fraction.length ≤ maxFractionDigits :=
  (h.trans hp).trans (by decide)

/-- The digits of a number to `p` places cut off its absolute value, counted in last places. -/
theorem truncates_ofRat (q : ℚ) (p : ℕ) :
    Truncates β (|q| * β.value ^ p) ((ofRat β q p).whole ++ (ofRat β q p).fraction) := by
  rw [ofRat, whole_append_fraction, abs_eq_natAbs_div_den]
  exact truncates_quotientDigits q.den_pos p

theorem legible_ofRat (q : ℚ) (p : ℕ) : (ofRat β q p).Legible β where
  whole_ne_nil := by
    have := length_le_quotientDigits (β := β) (n := q.num.natAbs) (d := q.den) p
    refine List.ne_nil_of_length_pos ?_
    unfold ofRat ofDigits
    rw [List.length_take]
    omega
  whole_lt d hd := (truncates_ofRat q p).lt_digitCount d (List.mem_append_left _ hd)
  fraction_lt d hd := (truncates_ofRat q p).lt_digitCount d (List.mem_append_right _ hd)

theorem value_ofRat_le (q : ℚ) (p : ℕ) : (ofRat β q p).value β ≤ |q| := by
  have hpos := β.value_pos
  unfold value
  rw [length_fraction_ofRat, div_le_iff₀ (by positivity)]
  exact (truncates_ofRat q p).le

theorem lt_value_ofRat (q : ℚ) (p : ℕ) : |q| < (ofRat β q p).value β + (β.value ^ p)⁻¹ := by
  have hpos := β.value_pos
  unfold value
  rw [length_fraction_ofRat, ← one_div, ← add_div, lt_div_iff₀ (by positivity)]
  exact (truncates_ofRat q p).lt

/-! ### The symbols of an expansion -/

/-- The characters of an expansion, with a point before the fraction. -/
def spell (f : ℕ → Char) (x : Expansion) : List Char :=
  x.whole.map f ++ if x.fraction.isEmpty then [] else '.' :: x.fraction.map f

theorem text_eq_spell (x : Expansion) : x.text = x.spell Digit.symbol := rfl

theorem ofChars_whole {w : List Char} (hw : ∀ c ∈ w, isSeparator c = false) :
    ofChars β w = w.mapM β.digit >>= fun whole => .ok ⟨whole, []⟩ := by
  unfold ofChars
  rw [(takeWhile_whole hw).1, (takeWhile_whole hw).2]
  rfl

theorem ofChars_divided {w fraction : List Char} {d : Char} (hw : ∀ c ∈ w, isSeparator c = false)
    (hd : isSeparator d = true) : ofChars β (w ++ d :: fraction) =
      w.mapM β.digit >>= fun whole => fraction.mapM β.digit >>= fun ds => .ok ⟨whole, ds⟩ := by
  unfold ofChars
  rw [(takeWhile_divided hw hd fraction).1, (takeWhile_divided hw hd fraction).2]
  rfl

/-- **The characters of an expansion are read as that expansion.** -/
theorem ofChars_spell {f : ℕ → Char} (hf : Spells β f) (h : x.Legible β) :
    ofChars β (x.spell f) = .ok x := by
  have hplain : ∀ c ∈ x.whole.map f, isSeparator c = false := by
    intro c hc
    obtain ⟨d, hd, rfl⟩ := List.mem_map.1 hc
    exact (hf.plain d (h.whole_lt d hd)).1
  unfold spell
  split
  · rename_i hempty
    have hnil : x.fraction = [] := List.isEmpty_iff.1 hempty
    rw [List.append_nil, ofChars_whole hplain, mapM_digit hf h.whole_lt, ok_bind]
    exact congrArg (fun ds => Except.ok (Expansion.mk x.whole ds)) hnil.symm
  · rw [ofChars_divided hplain rfl, mapM_digit hf h.whole_lt, ok_bind, mapM_digit hf h.fraction_lt,
      ok_bind]

theorem ofChars_text (h : x.Legible β) : ofChars β x.text = .ok x :=
  ofChars_spell spells_symbol h

/-- What holds of the point and of the characters for digits holds of all characters. -/
theorem Legible.forall_mem_spell (h : x.Legible β) {f : ℕ → Char} {P : Char → Prop} (hpoint : P '.')
    (hf : ∀ d < β.digitCount, P (f d)) : ∀ c ∈ x.spell f, P c := by
  have hdigits : ∀ ds : List ℕ, (∀ d ∈ ds, d < β.digitCount) → ∀ c ∈ ds.map f, P c := by
    intro ds hds c hc
    obtain ⟨d, hd, rfl⟩ := List.mem_map.1 hc
    exact hf d (hds d hd)
  unfold spell
  refine List.forall_mem_append.2 ⟨hdigits _ h.whole_lt, ?_⟩
  split
  · exact List.forall_mem_nil _
  · exact List.forall_mem_cons.2 ⟨hpoint, hdigits _ h.fraction_lt⟩

theorem Legible.isBlank_of_mem_text (h : x.Legible β) {c : Char} (hc : c ∈ x.text) :
    Text.isBlank c = false := by
  refine h.forall_mem_spell (P := fun c => Text.isBlank c = false) (by decide) (fun d hd => ?_) c hc
  exact (Digit.symbol_plain (hd.trans_le Radix.digitCount_le)).1

/-- The characters begin with the one of a whole digit, not with a sign. -/
theorem Legible.exists_spell_eq {f : ℕ → Char} (hf : Spells β f) (h : x.Legible β) :
    ∃ d ds cs, x.whole = d :: ds ∧ x.spell f = f d :: cs ∧ f d ≠ '-' := by
  obtain ⟨d, ds, hds⟩ := List.exists_cons_of_ne_nil h.whole_ne_nil
  have hd : d < β.digitCount := h.whole_lt d (by rw [hds]; exact List.mem_cons_self)
  have htext : x.spell f = f d :: (ds.map f ++
      if x.fraction.isEmpty then [] else '.' :: x.fraction.map f) := by
    unfold spell
    rw [hds, List.map_cons, List.cons_append]
  exact ⟨d, ds, _, hds, htext, (hf.plain d hd).2⟩

theorem Legible.text_ne_nil (h : x.Legible β) : x.text ≠ [] := by
  obtain ⟨d, ds, cs, -, htext, -⟩ := h.exists_spell_eq spells_symbol
  rw [text_eq_spell, htext]
  exact List.cons_ne_nil _ _

/-- Only zero is written with the one symbol of zero. -/
theorem Legible.value_of_text_zero (h : x.Legible β) (htext : x.text = ['0']) : x.value β = 0 := by
  have hzero : Legible β ⟨[0], []⟩ := by
    refine ⟨by simp, ?_, by simp⟩
    simpa using Radix.lt_digitCount (β := β) (d := 0) (by simpa using β.value_pos)
  have hread := ofChars_text h
  rw [htext, show ['0'] = text ⟨[0], []⟩ from rfl, ofChars_text hzero] at hread
  rw [← Except.ok.inj hread]
  simp [value]

end Expansion

/-! ## Numerals -/

namespace Numeral

open Expansion

variable {x : Expansion} {q : ℚ} {p : ℕ} {s : String}

/-- Characters for digits are read as the value of the digits, unless the fraction is too long. -/
theorem readChars_spell {f : ℕ → Char} (hf : Spells β f) (h : x.Legible β)
    (hlen : x.fraction.length ≤ maxFractionDigits) :
    readChars β (x.spell f) = .ok (x.value β) := by
  obtain ⟨d, ds, cs, -, htext, hd⟩ := h.exists_spell_eq hf
  have hread : readChars β (x.spell f) =
      Expansion.ofChars β (x.spell f) >>= fun x => x.checkedValue β := by
    rw [htext]
    unfold readChars
    split
    · rename_i hcons
      exact absurd (List.cons.inj hcons).1 hd
    · rfl
  rw [hread, ofChars_spell hf h, ok_bind, checkedValue_of_le hlen]

theorem readChars_text (h : x.Legible β) (hlen : x.fraction.length ≤ maxFractionDigits) :
    readChars β x.text = .ok (x.value β) :=
  readChars_spell spells_symbol h hlen

theorem signed_of_ne {cs : List Char} (h : cs ≠ ['0']) : signed true cs = '-' :: cs :=
  if_pos (by simpa using h)

/-- The sign is left out in front of zero, which has none. -/
theorem readChars_signed (h : x.Legible β) (hlen : x.fraction.length ≤ maxFractionDigits)
    (negative : Bool) :
    readChars β (signed negative x.text) = .ok (if negative then -x.value β else x.value β) := by
  cases negative with
  | false => exact readChars_text h hlen
  | true =>
    by_cases hzero : x.text = ['0']
    · rw [signed, if_neg (by simp [hzero]), readChars_text h hlen, h.value_of_text_zero hzero,
        if_pos rfl, neg_zero]
    · rw [signed_of_ne hzero, readChars, ofChars_text h, ok_bind, checkedValue_of_le hlen, ok_bind,
        if_pos rfl]
      rfl

/-- **A signed numeral is read as its value**, when no name hides it. -/
theorem read_signed (h : x.Legible β) (hlen : x.fraction.length ≤ maxFractionDigits)
    (negative : Bool) : read (String.ofList (signed negative x.text)) β Scope.empty =
      .ok (if negative then -x.value β else x.value β) := by
  set s := String.ofList (signed negative x.text) with hs
  have hchars : s.toList = signed negative x.text := String.toList_ofList
  have hplain : ∀ c ∈ s.toList, Text.isBlank c = false := by
    intro c hc
    rw [hchars] at hc
    unfold signed at hc
    split at hc
    · rcases List.mem_cons.1 hc with rfl | hc
      · decide
      · exact h.isBlank_of_mem_text hc
    · exact h.isBlank_of_mem_text hc
  have htrim : Text.trim s = s :=
    Text.trim_eq_self (fun c hc => hplain c (List.mem_of_mem_head? hc))
      (fun c hc => hplain c (List.mem_of_mem_getLast? hc))
  have hvisible : Text.trim s ≠ "" := by
    rw [htrim, Ne, ← String.toList_eq_nil_iff, hchars]
    unfold signed
    split
    · exact List.cons_ne_nil _ _
    · exact h.text_ne_nil
  rw [read_eq_readChars hvisible (Scope.get?_empty _), htrim, hchars]
  exact readChars_signed h hlen negative

/-! ## Writing and reading back -/

theorem writePositional_eq_ok (h : writePositional q β p = .ok s) :
    s = String.ofList (signed (q < 0) (ofRat β q p).trimmed.text) := by
  unfold writePositional at h
  split at h
  · cases h
  · exact (Except.ok.inj h).symm

/-- A number that is written is read back as the number cut off towards zero. -/
theorem exists_read (hp : p ≤ maxPrecision) (q : ℚ) :
    ∃ w, read (String.ofList (signed (q < 0) (ofRat β q p).trimmed.text)) β Scope.empty = .ok w ∧
      (w = 0 ∨ SignType.sign w = SignType.sign q) ∧
      0 ≤ |q| - |w| ∧ |q| - |w| < (β.value ^ p)⁻¹ := by
  have hle := value_ofRat_le (β := β) q p
  have hlt := lt_value_ofRat (β := β) q p
  have hlen := length_le_maxFractionDigits hp (length_fraction_trimmed_le (β := β) q p)
  have hread := read_signed (legible_ofRat q p).trimmed hlen (q < 0)
  rw [value_trimmed] at hread
  set v := (ofRat β q p).value β with hv
  have hv₀ : 0 ≤ v := value_nonneg _
  refine ⟨_, hread, ?_, ?_⟩
  · rcases hv₀.eq_or_lt with hzero | hpos
    · exact Or.inl (by simp [← hzero])
    right
    by_cases hq : q < 0
    · simp [hq, sign_neg, hpos]
    · have hq₀ : 0 < q := by
        rw [abs_of_nonneg (not_lt.1 hq)] at hle
        linarith
      simp [hq, sign_pos hq₀, sign_pos hpos]
  · have habs : |if decide (q < 0) = true then -v else v| = v := by
      split
      · rw [abs_neg, abs_of_nonneg hv₀]
      · exact abs_of_nonneg hv₀
    rw [habs]
    exact ⟨by linarith, by linarith⟩

/-- What follows the whole symbols of a numeral: nothing, or a point and symbols of the radix. -/
def IsFractionText (β : Radix) (cs : List Char) : Prop :=
  cs = [] ∨ ∃ symbols, cs = '.' :: symbols ∧ symbols ≠ [] ∧
    ∀ c ∈ symbols, c ∈ Digit.symbols.take β.digitCount

theorem mem_take_of_mem_map {ds : List ℕ} (hds : ∀ d ∈ ds, d < β.digitCount) :
    ∀ c ∈ ds.map Digit.symbol, c ∈ Digit.symbols.take β.digitCount := by
  intro c hc
  obtain ⟨d, hd, rfl⟩ := List.mem_map.1 hc
  exact Digit.symbol_mem_take Radix.digitCount_le (hds d hd)

/-- A numeral is a sign or none, symbols of the radix, and a fraction or none. -/
theorem exists_signed_eq (h : x.Legible β) (negative : Bool) :
    ∃ sign whole fraction, signed negative x.text = sign ++ whole ++ fraction ∧
      (sign = [] ∨ sign = ['-'] ∧ negative) ∧ whole ≠ [] ∧
      (∀ c ∈ whole, c ∈ Digit.symbols.take β.digitCount) ∧ IsFractionText β fraction := by
  have hwhole : x.whole.map Digit.symbol ≠ [] := by simpa using h.whole_ne_nil
  obtain ⟨fraction, htext, hfraction⟩ :
      ∃ fraction, x.text = x.whole.map Digit.symbol ++ fraction ∧ IsFractionText β fraction := by
    unfold text
    split
    · exact ⟨[], rfl, Or.inl rfl⟩
    · rename_i hne
      refine ⟨_, rfl, Or.inr ⟨_, rfl, ?_, mem_take_of_mem_map h.fraction_lt⟩⟩
      simpa using hne
  unfold signed
  rw [htext]
  split
  · rename_i hnegative
    exact ⟨['-'], _, _, rfl, Or.inr ⟨rfl, (Bool.and_eq_true_iff.1 hnegative).1⟩, hwhole,
      mem_take_of_mem_map h.whole_lt, hfraction⟩
  · exact ⟨[], _, _, rfl, Or.inl rfl, hwhole, mem_take_of_mem_map h.whole_lt, hfraction⟩

/-- What is written is read back as the number cut off towards zero at the last place. -/
theorem exists_read_of_write (h : write q β p false = .ok s) :
    ∃ w, read s β Scope.empty = .ok w ∧ (w = 0 ∨ SignType.sign w = SignType.sign q) ∧
      0 ≤ |q| - |w| ∧ |q| - |w| < (β.value ^ min p maxPrecision)⁻¹ :=
  writePositional_eq_ok h ▸ exists_read (min_le_right ..) q

/-- **What is written and read back** is the number cut off towards zero at the last place. The text
is a sign or none, symbols of the radix, and a point in front of more of them or none: there are
more digits than places, no digit is past the radix, and the zeros left out at the end do not
count. -/
theorem read_write (h : write q β p false = .ok s) :
    (∃ w, read s β Scope.empty = .ok w ∧ (w = 0 ∨ SignType.sign w = SignType.sign q) ∧
      0 ≤ |q| - |w| ∧ |q| - |w| < (β.value ^ min p maxPrecision)⁻¹) ∧
    (∃ sign whole fraction, s.toList = sign ++ whole ++ fraction ∧
      (sign = [] ∨ sign = ['-'] ∧ q < 0) ∧ whole ≠ [] ∧
      (∀ c ∈ whole, c ∈ Digit.symbols.take β.digitCount) ∧ IsFractionText β fraction) ∧
    min p maxPrecision < (quotientDigits β q.num.natAbs q.den (min p maxPrecision)).length ∧
    (∀ d ∈ quotientDigits β q.num.natAbs q.den (min p maxPrecision),
      d < β.digitCount ∧ d < Digit.count) ∧
    (ofRat β q (min p maxPrecision)).trimmed.value β =
      (ofRat β q (min p maxPrecision)).value β := by
  have hs := writePositional_eq_ok h
  set places := min p maxPrecision with hplaces
  refine ⟨hs ▸ exists_read (hplaces ▸ min_le_right ..) q, ?_, length_le_quotientDigits places, fun d hd => ?_,
    value_trimmed _⟩
  · obtain ⟨sign, whole, fraction, htext, hsign, hrest⟩ :=
      exists_signed_eq (legible_ofRat (β := β) q places).trimmed (q < 0)
    refine ⟨sign, whole, fraction, ?_, ?_, hrest⟩
    · rw [hs, String.toList_ofList, htext]
    · simpa using hsign
  · have hdigit := (truncates_quotientDigits (β := β) q.den_pos places).lt_digitCount d hd
    exact ⟨hdigit, hdigit.trans_le Radix.digitCount_le⟩

/-- The radix `5 / 2`, of three digits. -/
def fiveHalves : Radix := ⟨5 / 2, by decide +kernel, by decide +kernel⟩

/-- `- 22 / 7` in the radix `5 / 2` to three places. -/
theorem read_write_five_halves :
    write (-22 / 7) fiveHalves 3 false = .ok "-10.111" ∧
    ∃ w, read "-10.111" fiveHalves Scope.empty = .ok w ∧
      (w = 0 ∨ SignType.sign w = SignType.sign (-22 / 7 : ℚ)) ∧
      0 ≤ |(-22 / 7 : ℚ)| - |w| ∧ |(-22 / 7 : ℚ)| - |w| < ((5 / 2 : ℚ) ^ min 3 maxPrecision)⁻¹ := by
  have hwrite : write (-22 / 7) fiveHalves 3 false = .ok "-10.111" := by decide +kernel
  exact ⟨hwrite, (read_write hwrite).1⟩

end Numeral

end RadixCalc
