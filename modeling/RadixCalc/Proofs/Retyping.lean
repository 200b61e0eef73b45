import RadixCalc.Proofs.Canonical
import RadixCalc.Proofs.RadixLines

/-!
# Results typed back

A result written in an integer radix, typed as the next line, is shown again. The line is run in
lower case, so a result whose small letters are the name of a constant is taken for the constant
instead, and what was cut off may leave a number that is too long to be written.

* `ratBits_of_abs`, `lt_ratBits_of_read`: a number with longer parts once it is cut off.
* `Calculator.Shows`: a line whose only effect on the screen is a result.
* `Calculator.shows_iff_of_yields`: the line of an expression shows what is written of its value.
* `Calculator.Hidden`, `Calculator.shows_result`: which results are shown again.
-/

namespace RadixCalc

open Text Expansion

variable {β : Radix} {b p m : ℕ} {q : ℚ} {s : String}

/-! ## Numbers cut off -/

namespace Expansion

/-- A number cut off is a whole number of last places, the last one that fits. -/
theorem exists_natural_value (hb : β.value = b) (q : ℚ) (p : ℕ) :
    ∃ m : ℕ, (ofRat β q p).value β * β.value ^ p = m ∧ (m : ℚ) ≤ |q| * β.value ^ p ∧
      |q| * β.value ^ p < m + 1 := by
  have hpos := β.value_pos
  obtain ⟨-, hle, hlt⟩ := truncates_ofRat (β := β) q p
  rw [horner_eq_ofDigits hb] at hle hlt
  refine ⟨_, ?_, hle, hlt⟩
  unfold value
  rw [length_fraction_ofRat, ← horner_eq_ofDigits hb]
  field_simp

/-- A number is at least the first of its digits. -/
theorem le_value {x : Expansion} {d : ℕ} {ds : List ℕ} (hx : x.whole = d :: ds) :
    (d : ℚ) ≤ x.value β := by
  have hpos := β.value_pos
  have hwhole : (d : ℚ) ≤ horner β x.whole := by
    have hone : 1 ≤ β.value ^ ds.length := one_le_pow₀ Radix.one_lt_value.le
    have hplace : (d : ℚ) ≤ d * β.value ^ ds.length := le_mul_of_one_le_right d.cast_nonneg hone
    rw [hx, horner_cons]
    linarith [horner_nonneg (β := β) ds]
  unfold value
  rw [le_div_iff₀ (by positivity), horner_append]
  have hscaled := mul_le_mul_of_nonneg_right hwhole (pow_pos hpos x.fraction.length).le
  linarith [horner_nonneg (β := β) x.fraction]

end Expansion

/-- **The text of a number** is that of the number cut off, behind a minus sign or none, and is read
as such. -/
theorem Numeral.exists_numeral (h : write q β p false = .ok s) :
    ∃ (x : Expansion) (negative : Bool), x.Legible β ∧ x.fraction.length ≤ maxFractionDigits ∧
      x.value β = (ofRat β q (min p maxPrecision)).value β ∧
      s = String.ofList (minus negative ++ x.text) ∧
      read s β Scope.empty = .ok (if negative then -x.value β else x.value β) := by
  have hp : min p maxPrecision ≤ maxPrecision := min_le_right ..
  obtain ⟨x, negative, hx, hsign, hvalue, rfl⟩ := exists_canonical h
  exact ⟨x, negative, hx.legible, length_le_maxFractionDigits hp hx.length_fraction, hvalue, rfl,
    read_numeral hx hsign hp⟩

/-! ## Numbers that are longer once they are cut off -/

/-- The bits of a quotient in lowest terms are those of its two parts. -/
theorem ratBits_of_abs {k : ℕ} (hk : 0 < k) (hcoprime : m.Coprime k) (hq : |q| = m / k) :
    ratBits q = max (bitLength m) (bitLength k) := by
  have hquotient : |q| = ((m : ℤ) : ℚ) / (k : ℤ) := hq
  have hpos : 0 < (k : ℤ) := Int.natCast_pos.2 hk
  have hnum : (q.num.natAbs : ℤ) = m := by
    rw [← Int.abs_eq_natAbs, ← Rat.num_abs_eq_abs_num, hquotient]
    exact Rat.num_div_eq_of_coprime hpos hcoprime
  have hden : (q.den : ℤ) = k := by
    rw [← Rat.den_abs_eq_den, hquotient]
    exact Rat.den_div_eq_of_coprime hpos hcoprime
  norm_cast at hnum hden
  unfold ratBits
  rw [hnum, hden]

/-- A power of two and a third is short: its denominator is three. -/
theorem ratBits_two_pow_add_third (n : ℕ) : ratBits (2 ^ n + 1 / 3) ≤ n + 3 := by
  have hquotient : |(2 ^ n + 1 / 3 : ℚ)| = (3 * 2 ^ n + 1 : ℕ) / (3 : ℕ) := by
    rw [abs_of_nonneg (by positivity)]
    push_cast
    ring
  have hcoprime : Nat.Coprime (3 * 2 ^ n + 1) 3 :=
    (Nat.coprime_mul_left_add_left 1 3 (2 ^ n)).2 (Nat.coprime_one_left 3)
  have hpos : 0 < 2 ^ n := Nat.two_pow_pos n
  have hpow : 2 ^ (n + 3) = 2 ^ n * 8 := pow_add ..
  rw [ratBits_of_abs (by decide) hcoprime hquotient, max_le_iff, bitLength_le_iff (Nat.succ_pos _),
    bitLength_le_iff (by decide)]
  omega

/-- A number that ends in a three has no factor in common with a power of ten. -/
theorem coprime_pow_ten (h : m % 10 = 3) (k : ℕ) : m.Coprime (10 ^ k) := by
  have hten : Nat.Coprime 10 m := by
    rw [Nat.Coprime, Nat.gcd_rec, h]
    rfl
  exact hten.symm.pow_right k

/-- Thirty threes, a third of `10 ^ 30` cut off. -/
def threes : ℕ := 333333333333333333333333333333

/-- What thirty decimals leave of a power of two and a third. -/
theorem eq_of_bounds_third {n : ℕ} (hle : (m : ℚ) ≤ (2 ^ n + 1 / 3) * 10 ^ 30)
    (hlt : ((2 ^ n + 1 / 3) * 10 ^ 30 : ℚ) < m + 1) : m = 2 ^ n * 10 ^ 30 + threes := by
  have hthrees : (3 * threes + 1 : ℚ) = 10 ^ 30 := by norm_num [threes]
  refine eq_of_natCast_bounds hle hlt ?_ ?_
  · push_cast
    linarith
  · push_cast
    linarith

/-- A power of two and a third, cut off after thirty decimals, has longer parts than before: the new
denominator is `10 ^ 30`. -/
theorem lt_ratBits_of_read {n : ℕ} {w : ℚ}
    (h : Numeral.write (2 ^ n + 1 / 3) Radix.ten 30 false = .ok s)
    (hread : Numeral.read s Radix.ten Scope.empty = .ok w) : n + 99 < ratBits w := by
  have hten : Radix.ten.value = (10 : ℕ) := rfl
  obtain ⟨m, hm, hle, hlt⟩ := exists_natural_value hten (2 ^ n + 1 / 3) 30
  have habs := Numeral.abs_of_read h hread
  rw [min_eq_left (by decide)] at habs
  rw [abs_of_nonneg (by positivity), hten] at hle hlt
  have hplaces := eq_of_bounds_third hle hlt
  have hquotient : |w| = m / (10 ^ 30 : ℕ) := by
    rw [eq_div_iff (by norm_num), ← hm, habs, hten]
    push_cast
    rfl
  -- the last place is a three, so that nothing cancels
  have hcoprime : m.Coprime (10 ^ 30) := by
    apply coprime_pow_ten
    rw [hplaces, threes]
    omega
  have hlong : 2 ^ (n + 99) ≤ m :=
    calc 2 ^ (n + 99) = 2 ^ n * 2 ^ 99 := pow_add ..
      _ ≤ 2 ^ n * 10 ^ 30 := Nat.mul_le_mul_left _ (by norm_num)
      _ ≤ m := by omega
  have hpos : 0 < m := lt_of_lt_of_le (Nat.two_pow_pos _) hlong
  rw [ratBits_of_abs (Nat.pow_pos (by decide)) hcoprime hquotient]
  refine lt_max_of_lt_left (Nat.not_le.1 fun hshort => ?_)
  exact absurd ((bitLength_le_iff hpos).1 hshort) (Nat.not_lt.2 hlong)

/-! ## Lines that show a result -/

theorem Transcript.getLast?_push (t : Transcript) (l : Line) :
    (t.push l).lines.getLast? = some l := by
  have hcapacity : 0 < capacity := by decide
  rw [lines_push, List.getLast?_drop, if_neg, List.getLast?_concat]
  rw [List.length_append, List.length_singleton]
  omega

namespace Calculator

variable {c : Calculator} {line text : String} {settings : Settings} {value : ℚ}

/-- **The line shows the text**: it ends without a fault and without an incident, and the text is the
last line of the transcript. -/
structure Shows (c : Calculator) (line text : String) : Prop where
  error_eq : (c.runLine line).error = ""
  incidents_eq : (c.runLine line).incidents = []
  last_eq : (c.runLine line).transcript.lines.getLast? = some (.output text)

/-- The result of an expression is what is written of its value. -/
theorem result_of_yields {t : Scope} (hs : t.settings = .ok settings)
    (h : Yields line settings.inputRadix t value []) :
    ∃ workings, result line t =
      (Numeral.write value settings.outputRadix settings.precision settings.asFraction >>=
        fun text => .ok (text, ⟨value, [], workings⟩), t) := by
  obtain ⟨workings, hline⟩ := h
  refine ⟨workings, ?_⟩
  unfold result
  rw [hs]
  dsimp only
  rw [hline]
  dsimp only
  rw [ok_bind, hs, ok_bind]
  rfl

/-- **An expression with a value and no incident** shows what is written of its value. -/
theorem shows_iff_of_yields (hs : c.scope.settings = .ok settings)
    (hvisible : lower (trim line) ≠ "") (hcommand : (lower (trim line)).toList.head? ≠ some '#')
    (h : Yields (lower (trim line)) settings.inputRadix c.scope value []) :
    Shows c line text ↔ Numeral.write value settings.outputRadix settings.precision
      settings.asFraction = .ok text := by
  obtain ⟨workings, hresult⟩ := result_of_yields hs h
  have hrun := runLine_of_expression (c := c) hvisible hcommand
  have hshown : (c.shown (lower (trim line))).scope = c.scope := scope_shown
  rw [← hshown] at hresult
  cases hwrite : Numeral.write value settings.outputRadix settings.precision settings.asFraction with
  | error f =>
    rw [hwrite, error_bind] at hresult
    obtain ⟨bits, rfl⟩ := Numeral.write_error_cases hwrite
    refine iff_of_false (fun hshows => ?_) nofun
    have herror := (runExpression_of_error hresult).2
    rw [← hrun, hshows.error_eq] at herror
    exact Fault.message_ne_empty _ herror.symm
  | ok shown =>
    rw [hwrite, ok_bind] at hresult
    have hc : c.runLine line = { c.shown (lower (trim line)) with
        transcript := (c.shown (lower (trim line))).transcript.push (.output shown)
        incidents := [], workings := workings } := by
      rw [hrun]
      unfold runExpression
      rw [hresult]
      simp only [displayAll, Transcript.pushAll, List.map_nil, List.foldl_cons, List.foldl_nil]
    have hlast : (c.runLine line).transcript.lines.getLast? = some (.output shown) := by
      rw [hc, Transcript.getLast?_push]
    constructor
    · intro hshows
      have heq := hlast.symm.trans hshows.last_eq
      cases heq
      rfl
    · intro heq
      cases heq
      exact ⟨by rw [hc]; rfl, by rw [hc], hlast⟩

/-! ## Results typed back -/

variable {x : Expansion} {k : ℚ} {negative : Bool}

/-- The line of a numeral shows what is written of the value of its small letters. -/
theorem shows_iff_of_numeral (hb : β.value = b) (h : x.Legible β)
    (hk : Numeral.read (String.ofList (x.spell smallSymbol)) β (inRadix b).scope = .ok k) :
    Shows (inRadix b) (String.ofList (minus negative ++ x.text)) text ↔
      Numeral.write (if negative then -k else k) β 30 false = .ok text := by
  have htext := h.isWordChar_of_mem_text
  have hline : lower (trim (String.ofList (minus negative ++ x.text))) =
      String.ofList (minus negative ++ x.spell smallSymbol) := by
    rw [(solid_append.2 ⟨solid_minus negative, solid_of_isWordChar htext⟩).trim_eq,
      lower_numeral h negative]
  obtain ⟨d, ds, cs, -, hspell, hminus⟩ := h.exists_spell_eq spells_small
  have hne : x.spell smallSymbol ≠ [] := by
    rw [hspell]
    exact List.cons_ne_nil _ _
  have hs := settings_inRadix hb
  have hyields := yields_signedWord negative hne h.isWordChar_of_mem_small hs hk
  rw [← hline] at hyields
  refine shows_iff_of_yields hs ?_ ?_ hyields
  · rw [hline, ne_eq, ← String.toList_eq_nil_iff, String.toList_ofList, List.append_eq_nil_iff]
    exact fun hnil => hne hnil.2
  · -- a numeral begins with a sign or with a digit, so it is no command
    rw [hline, String.toList_ofList]
    have hword := h.isWordChar_of_mem_small (smallSymbol d) (hspell ▸ List.mem_cons_self)
    cases negative with
    | false =>
      rw [hspell]
      intro hhash
      have hd : smallSymbol d = '#' := Option.some.inj hhash
      rw [hd] at hword
      revert hword
      decide +kernel
    | true => exact nofun

/-- The results that are not read as numerals when they are typed: in lower case they are the name of
a constant, with a sign or without. -/
def Hidden (line : String) : Prop :=
  lower line ∈ ["e", "-e", "pi", "-pi"]

/-- A result is hidden when its small letters are the name of a constant. -/
theorem hidden_iff (h : x.Legible β) : Hidden (String.ofList (minus negative ++ x.text)) ↔
    String.ofList (x.spell smallSymbol) ∈ ["e", "pi"] := by
  obtain ⟨d, ds, cs, -, hspell, hminus⟩ := h.exists_spell_eq spells_small
  unfold Hidden
  rw [lower_numeral h negative]
  simp only [List.mem_cons, List.not_mem_nil, or_false, ← String.toList_inj, String.toList_ofList,
    hspell]
  cases negative with
  | false => simp [minus, hminus]
  | true => simp [minus]

/-- A result that a constant hides is more than four, and so more than the constant: its first digit
is the one of the letter `e` or `p`. -/
theorem lt_value_of_hidden (h : x.Legible β)
    (hname : String.ofList (x.spell smallSymbol) ∈ ["e", "pi"]) : 4 < x.value β := by
  have hfirst : ∀ d < Digit.count, smallSymbol d = 'e' ∨ smallSymbol d = 'p' → 4 < d := by
    decide +kernel
  obtain ⟨d, ds, cs, hwhole, hspell, -⟩ := h.exists_spell_eq spells_small
  have hd : d < Digit.count :=
    (h.whole_lt d (by rw [hwhole]; exact List.mem_cons_self)).trans_le Radix.digitCount_le
  have hletter : smallSymbol d = 'e' ∨ smallSymbol d = 'p' := by
    simp only [List.mem_cons, List.not_mem_nil, or_false, ← String.toList_inj, String.toList_ofList,
      hspell] at hname
    rcases hname with hname | hname
    · exact .inl (List.cons.inj hname).1
    · exact .inr (List.cons.inj hname).1
  have hlt : (4 : ℚ) < d := by exact_mod_cast hfirst d hd hletter
  exact hlt.trans_le (le_value hwhole)

/-- The small letters of a numeral are read as a constant or as its value. -/
theorem read_inRadix (hb : β.value = b) (h : x.Legible β)
    (hlen : x.fraction.length ≤ maxFractionDigits) :
    (String.ofList (x.spell smallSymbol) ∈ ["e", "pi"] → ∃ k : ℚ, |k| < 4 ∧
      Numeral.read (String.ofList (x.spell smallSymbol)) β (inRadix b).scope = .ok k) ∧
    (String.ofList (x.spell smallSymbol) ∉ ["e", "pi"] →
      Numeral.read (String.ofList (x.spell smallSymbol)) β (inRadix b).scope = .ok (x.value β)) := by
  have hplain : '$' ∉ (String.ofList (x.spell smallSymbol)).toList := by
    have hsymbols : ∀ d < Digit.count, smallSymbol d ≠ '$' := by decide +kernel
    rw [String.toList_ofList]
    exact fun hmem => h.forall_mem_spell (P := (· ≠ '$')) (by decide)
      (fun d hd => hsymbols d (hd.trans_le Radix.digitCount_le)) _ hmem rfl
  obtain ⟨hbound, hunbound⟩ := get?_inRadix_of_plain hb hplain
  obtain ⟨d, ds, cs, -, hspell, -⟩ := h.exists_spell_eq spells_small
  obtain ⟨hname, hdigits⟩ := Numeral.read_word (hspell ▸ List.cons_ne_nil _ _)
    h.isWordChar_of_mem_small β (inRadix b).scope
  constructor
  · intro hconstant
    obtain ⟨k, hget, hk⟩ := hbound hconstant
    exact ⟨k, hk, hname k hget⟩
  · intro hfree
    rw [hdigits (hunbound hfree)]
    exact Numeral.readChars_spell spells_small h hlen

/-- **A result that a constant hides** is not shown again: what is written of the constant is at most
the constant, and the numeral is more. -/
theorem not_shows_of_hidden (hb : β.value = b) (h : Numeral.write q β 30 false = .ok s)
    (hhidden : Hidden s) : ¬ Shows (inRadix b) s s := by
  obtain ⟨x, negative, hlegible, hlen, hvalue, rfl, hread⟩ := Numeral.exists_numeral h
  have hname := (hidden_iff hlegible).1 hhidden
  obtain ⟨k, hk, hword⟩ := (read_inRadix hb hlegible hlen).1 hname
  rw [shows_iff_of_numeral hb hlegible hword]
  intro hwrite
  obtain ⟨w, hw, -, hle, -⟩ := Numeral.exists_read_of_write hwrite
  have habs : |w| = x.value β := (Numeral.abs_of_read h hw).trans hvalue.symm
  rw [habs, Numeral.abs_ite_neg] at hle
  linarith [lt_value_of_hidden hlegible hname]

/-- A result that no constant hides is read back, and shows what is written of that. -/
theorem shows_iff_write {w : ℚ} (hb : β.value = b) (h : Numeral.write q β 30 false = .ok s)
    (hhidden : ¬ Hidden s) (hread : Numeral.read s β Scope.empty = .ok w) :
    Shows (inRadix b) s s ↔ Numeral.write w β 30 false = .ok s := by
  obtain ⟨x, negative, hlegible, hlen, -, rfl, hnumeral⟩ := Numeral.exists_numeral h
  rw [hread] at hnumeral
  rw [hidden_iff hlegible] at hhidden
  rw [Except.ok.inj hnumeral]
  exact shows_iff_of_numeral hb hlegible ((read_inRadix hb hlegible hlen).2 hhidden)

/-- **A result that leaves a number too long** is not shown again. -/
theorem not_shows_of_long {w : ℚ} (hb : β.value = b) (h : Numeral.write q β 30 false = .ok s)
    (hread : Numeral.read s β Scope.empty = .ok w) (hlong : maxBits < ratBits w) :
    ¬ Shows (inRadix b) s s := by
  by_cases hhidden : Hidden s
  · exact not_shows_of_hidden hb h hhidden
  rw [shows_iff_write hb h hhidden hread]
  obtain ⟨bits, herror⟩ := Numeral.exists_write_error (p := 30)
    ((Numeral.bitLimit_of_value hb).trans_lt hlong) false
  rw [herror]
  exact nofun

/-- A number that may just be written, and that is too long once it is cut off. -/
theorem exists_not_shows_long {n : ℕ} (hshort : n + 3 ≤ maxBits) (hlong : maxBits ≤ n + 99) :
    ∃ s, Numeral.write (2 ^ n + 1 / 3) Radix.ten 30 false = .ok s ∧ ¬ Shows (inRadix 10) s s := by
  have hlimit : Numeral.bitLimit Radix.ten = maxBits := Numeral.bitLimit_of_value (b := 10) rfl
  obtain ⟨s, hs⟩ := Numeral.exists_write (p := 30)
    ((ratBits_two_pow_add_third n).trans (hlimit ▸ hshort)) false
  obtain ⟨_, hread, -⟩ := Numeral.exists_read_of_write hs
  exact ⟨s, hs, not_shows_of_long (b := 10) rfl hs hread
    (hlong.trans_lt (lt_ratBits_of_read hs hread))⟩

/-- **A result typed back is shown again**, in every integer radix, if it is not hidden by a constant
and what is read from it is short enough to be written, and only then. -/
theorem shows_result (hb : β.value = b) (h : Numeral.write q β 30 false = .ok s) :
    Shows (inRadix b) s s ↔ ¬ Hidden s ∧
      ∀ w, Numeral.read s β Scope.empty = .ok w → ratBits w ≤ maxBits := by
  constructor
  · intro hshows
    refine ⟨fun hhidden => not_shows_of_hidden hb h hhidden hshows, fun w hread => ?_⟩
    exact Nat.not_lt.1 fun hlong => not_shows_of_long hb h hread hlong hshows
  · rintro ⟨hhidden, hshort⟩
    obtain ⟨_, hread, -⟩ := Numeral.exists_read_of_write h
    rw [shows_iff_write hb h hhidden hread]
    exact Numeral.write_of_read_of_short h hread
      ((Numeral.bitLimit_of_value hb).symm ▸ hshort _ hread)

/-- The radix 16. -/
def hex : Radix := ⟨16, by decide, by decide⟩

/-- A negative number with a fraction, in the radix 16. -/
theorem shows_result_hex : Numeral.write (-57005 / 256) hex 30 false = .ok "-DE.AD" ∧
    Shows (inRadix 16) "-DE.AD" "-DE.AD" := by
  have hwrite : Numeral.write (-57005 / 256) hex 30 false = .ok "-DE.AD" := by decide +kernel
  have hread : Numeral.read "-DE.AD" hex Scope.empty = .ok (-57005 / 256) := by decide +kernel
  refine ⟨hwrite, (shows_result (b := 16) rfl hwrite).2 ⟨?_, fun w hw => ?_⟩⟩
  · unfold Hidden
    decide +kernel
  · rw [hread] at hw
    cases hw
    decide +kernel

/-- **Two results that are not shown again**: the fourteenth digit of the radix 16, which in lower
case is the constant `e`, and a number of 999992 bits, which cut off has more than a million. -/
theorem not_shows_constant_nor_long :
    (Numeral.write 14 hex 30 false = .ok "E" ∧
      ((inRadix 16).runLine "E").transcript.lines.getLast? =
        some (.output "2.B7E151628AED2A6ABF7158809CF4F3") ∧
      ¬ Shows (inRadix 16) "E" "E") ∧
    ∃ s, Numeral.write (2 ^ 999990 + 1 / 3) Radix.ten 30 false = .ok s ∧
      ¬ Shows (inRadix 10) s s := by
  have hwrite : Numeral.write 14 hex 30 false = .ok "E" := by decide +kernel
  have hhidden : Hidden "E" := by
    unfold Hidden
    decide +kernel
  exact ⟨⟨hwrite, by decide +kernel, not_shows_of_hidden (b := 16) rfl hwrite hhidden⟩,
    exists_not_shows_long (by decide) (by decide)⟩

end Calculator

end RadixCalc
