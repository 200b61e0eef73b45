import RadixCalc.Proofs.Numerals
import RadixCalc.Proofs.Quotients
import RadixCalc.Proofs.Session

/-!
# Numerals that no name hides

A word of decimal figures begins with no letter, so it is never bound: it is read as a numeral in
every scope that lines lead to, whatever they assign. One of too many fractional digits is refused in
all of them.

* `Figures`: the words of decimal figures of a radix, with one separator at most.
* `Figures.exists_read`, `Figures.read_of_long`: such a word spells a number, or is too long.
* `Figures.not_isName`: it is no name.
* `Scope.Reachable`: the scopes that lines lead to.
* `yields_figures`: what becomes of the word in these scopes.
-/

namespace RadixCalc

open Text

variable {β : Radix} {w : List Char} {c : Char} {s : Scope}

/-! ## Figures -/

/-- A decimal figure that is a digit of the radix. -/
def IsFigure (β : Radix) (c : Char) : Prop :=
  c.isDigit = true ∧ c.toNat < '0'.toNat + β.digitCount

/-- **The words of decimal figures** of a radix, with one separator at most. -/
structure Figures (β : Radix) (w : List Char) : Prop where
  figure : ∀ c ∈ w, isSeparator c = true ∨ IsFigure β c
  separators : w.countP isSeparator ≤ 1

/-- The decimal figures are the first ten symbols. -/
theorem exists_symbol_of_isDigit (h : c.isDigit = true) :
    ∃ d < 10, c = Digit.symbol d ∧ c.toNat = '0'.toNat + d := by
  have hsymbols : ∀ d < 10, Char.ofNat ('0'.toNat + d) = Digit.symbol d := by decide +kernel
  simp only [Char.isDigit, Bool.and_eq_true, decide_eq_true_eq, UInt32.le_iff_toNat_le, ge_iff_le]
    at h
  change '0'.toNat ≤ c.toNat ∧ c.toNat ≤ '0'.toNat + 9 at h
  refine ⟨c.toNat - '0'.toNat, by omega, ?_, by omega⟩
  rw [← hsymbols _ (by omega), Nat.add_sub_cancel' h.1, Char.ofNat_toNat]

theorem IsFigure.exists_digit (h : IsFigure β c) :
    ∃ d, c = Digit.symbol d ∧ d < 10 ∧ d < β.digitCount := by
  obtain ⟨d, hd, hsymbol, hcode⟩ := exists_symbol_of_isDigit h.1
  have hbelow := h.2
  exact ⟨d, hsymbol, hd, by omega⟩

/-- Figures are digits of the radix. -/
theorem IsFigure.hasDigit (h : IsFigure β c) : β.HasDigit c := by
  obtain ⟨d, rfl, -, hd⟩ := h.exists_digit
  by_contra hnone
  rw [Radix.hasDigit_iff] at hnone
  have hvalue := Digit.value?_symbol Radix.digitCount_le hd
  rw [Digit.value?_eq_none hnone] at hvalue
  cases hvalue

namespace Figures

theorem isNumeral (h : Figures β w) : IsNumeral β w where
  digit c hc := (h.figure c hc).imp_right IsFigure.hasDigit
  separators := h.separators

/-- A word of figures has no sign. -/
theorem unsigned_eq (h : Figures β w) : unsigned w = w := by
  unfold unsigned
  split
  · rcases h.figure '-' List.mem_cons_self with hsep | hfig
    · exact absurd hsep (by decide)
    · exact absurd hfig.1 (by decide)
  · rfl

theorem isWordChar (h : Figures β w) : ∀ c ∈ w, isWordChar c = true := by
  intro c hc
  rcases h.figure c hc with hsep | hfig
  · unfold RadixCalc.isWordChar
    rw [hsep, Bool.or_true]
  · obtain ⟨d, rfl, -, hd⟩ := hfig.exists_digit
    exact isWordChar_of_mem_symbols (Digit.symbol_mem_take Radix.digitCount_le hd)

/-- **A word of figures is no name**: neither a figure nor a separator begins one. -/
theorem not_isName (h : Figures β w) : ¬ isName (String.ofList w) = true := by
  intro hname
  unfold isName at hname
  rw [String.toList_ofList] at hname
  cases w with
  | nil => cases hname
  | cons c cs =>
    have hstart : isNameStart c = true := (Bool.and_eq_true_iff.1 hname).1
    rcases h.figure c List.mem_cons_self with hsep | hfig
    · have hsep' : c = '.' ∨ c = ',' := by simpa [isSeparator] using hsep
      rcases hsep' with rfl | rfl <;> exact absurd hstart (by decide +kernel)
    · obtain ⟨d, rfl, hd, -⟩ := hfig.exists_digit
      have hfigures : ∀ d < 10, isNameStart (Digit.symbol d) = false := by decide +kernel
      rw [hfigures d hd] at hstart
      cases hstart

/-- A word of figures is read in every scope in which it is not bound. -/
theorem read_eq (h : Figures β w) (hne : w ≠ []) (hfree : s.get? (String.ofList w) = none) :
    Numeral.read (String.ofList w) β s = Numeral.readChars β w :=
  (Numeral.read_word hne h.isWordChar β s).2 hfree

/-- **A word of figures spells a number**, unless its fraction is too long. -/
theorem exists_read (h : Figures β w) (hlen : fractionLength w ≤ maxFractionDigits) :
    ∃ x, Numeral.read (String.ofList w) β .empty = .ok x := by
  by_cases hne : w = []
  · subst hne
    exact ⟨0, rfl⟩
  · have hnumeral := h.isNumeral
    rw [← h.unsigned_eq] at hnumeral hlen
    rw [h.read_eq hne (Scope.get?_empty _)]
    exact ⟨_, Numeral.readChars_of_isNumeral hnumeral hlen⟩

theorem ne_nil_of_long (hlen : maxFractionDigits < fractionLength w) : w ≠ [] := by
  rintro rfl
  exact Nat.not_lt_zero _ hlen

/-- A word of figures with too long a fraction is refused. -/
theorem read_of_long (h : Figures β w) (hlen : maxFractionDigits < fractionLength w) :
    Numeral.read (String.ofList w) β .empty = .error (.malformed .tooManyDigits) := by
  have hne := ne_nil_of_long hlen
  have hnumeral := h.isNumeral
  rw [← h.unsigned_eq] at hnumeral hlen
  rw [h.read_eq hne (Scope.get?_empty _)]
  exact Numeral.readChars_of_long hnumeral hlen

end Figures

/-! ## Lines -/

/-- The scopes that lines lead to from the one at the start, in any radices, whether they fail or
not. -/
inductive Scope.Reachable : Scope → Prop
  | initial : Reachable Scope.initial
  | line {s : Scope} (h : Reachable s) (line : String) (β : Radix) :
      Reachable (evaluateLine line β s).2

/-- Lines bind names only, and to settings only what they may be. -/
theorem Scope.Reachable.sound (h : s.Reachable) : s.Sound := by
  induction h with
  | initial => exact Scope.sound_initial
  | line _ line β ih => exact (Calculator.leads_evaluateLine line β _).sound ih

/-- **A word of figures is not bound** in a scope of names: it is read as in the empty one. -/
theorem Scope.Sound.read_of_figures (hs : s.Sound) (h : Figures β w) (hne : w ≠ []) :
    Numeral.read (String.ofList w) β s = Numeral.read (String.ofList w) β .empty := by
  have hfree : s.get? (String.ofList w) = none := by
    rw [Option.eq_none_iff_forall_ne_some]
    exact fun value hvalue => h.not_isName (hs.named _ _ hvalue)
  rw [h.read_eq hne hfree, h.read_eq hne (Scope.get?_empty _)]

/-- **No assignment changes the meaning of a numeral.** In every scope that lines lead to, a word of
decimal figures that are digits of the radix, with one separator at most, has the value that it has
in the empty scope, with no incident. If its fraction is too long, it has none there, and stops the
line with the same fault. The radix may have other digits besides the figures. -/
theorem yields_figures (hs : s.Reachable) (h : Figures β w) :
    (fractionLength w ≤ maxFractionDigits →
      ∃ x, Numeral.read (String.ofList w) β .empty = .ok x ∧ Yields (String.ofList w) β s x []) ∧
    (maxFractionDigits < fractionLength w →
      Numeral.read (String.ofList w) β .empty = .error (.malformed .tooManyDigits) ∧
        evaluateLine (String.ofList w) β s = (.error (.malformed .tooManyDigits), s)) := by
  obtain ⟨settings, hsettings, -⟩ := hs.sound.exists_settings
  constructor
  · intro hlen
    obtain ⟨x, hx⟩ := h.exists_read hlen
    refine ⟨x, hx, ?_⟩
    by_cases hne : w = []
    · subst hne
      cases hx
      exact ⟨{}, evaluateLine_of_plain (by decide)⟩
    · exact yields_signedWord false hne h.isWordChar hsettings
        ((hs.sound.read_of_figures h hne).trans hx)
  · intro hlen
    have hne := Figures.ne_nil_of_long hlen
    have hx := h.read_of_long hlen
    exact ⟨hx, evaluateLine_of_read_error hne h.isWordChar hsettings
      ((hs.sound.read_of_figures h hne).trans hx) rfl⟩

/-- A point in front of zeros. -/
theorem figures_point_zeros (n : ℕ) : Figures β ('.' :: List.replicate n '0') where
  figure := by
    have hpos : 0 < β.digitCount := Radix.lt_digitCount (by simpa using β.value_pos)
    have hzero : IsFigure β '0' := ⟨by decide, Nat.lt_add_of_pos_right hpos⟩
    refine List.forall_mem_cons.2 ⟨.inl (by decide), fun c hc => .inr ?_⟩
    rwa [List.eq_of_mem_replicate hc]
  separators := by
    rw [List.countP_cons_of_pos (by decide), List.countP_replicate, if_neg (by decide)]

theorem fractionLength_point_zeros (n : ℕ) : fractionLength ('.' :: List.replicate n '0') = n :=
  (fractionLength_divided (w := []) (List.forall_mem_nil _) (by decide)).trans List.length_replicate

/-- Lines that bind `e2` and a radix, and one that fails to bind `2e`, leave `2,1` what it is in the
radix `5 / 2`, and too many zeros behind a point a fault. -/
theorem yields_figures_two_fifths :
    ∃ s, s = (evaluateLine "2e := 1" Radix.ten (evaluateLine "$input_base := 16" Radix.ten
        (evaluateLine "e2 := 7" Radix.thirtySix Scope.initial).2).2).2 ∧
      s.Reachable ∧ s.get? "e2" = some 7 ∧ Figures Numeral.fiveHalves ['2', ',', '1'] ∧
      Yields "2,1" Numeral.fiveHalves s (12 / 5) [] ∧
      evaluateLine (String.ofList ('.' :: List.replicate (maxFractionDigits + 1) '0'))
        Numeral.fiveHalves s = (.error (.malformed .tooManyDigits), s) := by
  have hreachable := ((Scope.Reachable.initial.line "e2 := 7" Radix.thirtySix).line
    "$input_base := 16" Radix.ten).line "2e := 1" Radix.ten
  have hfigures : Figures Numeral.fiveHalves ['2', ',', '1'] := by
    have hcount : Numeral.fiveHalves.digitCount = 3 := by decide +kernel
    refine ⟨?_, by decide⟩
    simp only [IsFigure, hcount, List.forall_mem_cons]
    exact ⟨.inr (by decide), .inl (by decide), .inr (by decide), List.forall_mem_nil _⟩
  refine ⟨_, rfl, hreachable, by decide +kernel, hfigures, ?_, ?_⟩
  · obtain ⟨x, hread, hyields⟩ := (yields_figures hreachable hfigures).1 (by decide)
    have hvalue : Numeral.read "2,1" Numeral.fiveHalves .empty = .ok (12 / 5) := by decide +kernel
    cases hread.symm.trans hvalue
    exact hyields
  · have hlong := (Nat.lt_succ_self maxFractionDigits).trans_eq (fractionLength_point_zeros _).symm
    exact ((yields_figures hreachable (figures_point_zeros _)).2 hlong).2

end RadixCalc
