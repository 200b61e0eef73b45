import RadixCalc.Proofs.Persistence
import RadixCalc.Proofs.Session
import RadixCalc.Proofs.SmallLetters

/-!
# Lines that set the radices

The calculator whose two radices have been set by lines, as a user sets them.

* `wholeText_decimal`, `evaluate_decimal`: a natural number in base ten is read as itself.
* `Calculator.radixLine`, `binds_radixLine`: a line that sets a radix.
* `Calculator.scope_runLine_of_binds`: the scope behind a line that binds.
* `Calculator.inRadix`: the calculator after the two lines; `scope_inRadix`, `settings_inRadix`: its
  scope and its settings.
-/

namespace RadixCalc

open Text Expansion Numeral

variable {β : Radix} {b n : ℕ} {s : Scope} {setting : Setting} {line name : String} {value : Rat}
  {c : Calculator}

/-! ## Natural numbers in base ten -/

/-- The digits that a natural number is written with in base ten. -/
theorem exists_decimal_eq (n : ℕ) : ∃ ds : List ℕ, ds ≠ [] ∧ (∀ d ∈ ds, d < 10) ∧
    horner Radix.ten ds = n ∧ decimal n = String.ofList (ds.map Digit.symbol) := by
  unfold decimal
  split
  · rename_i hn
    subst hn
    refine ⟨[0], List.cons_ne_nil _ _, by decide, ?_, by decide⟩
    rw [horner_cons, List.length_nil, pow_zero, mul_one, horner_nil, add_zero]
  · rename_i hn
    have hvalue := horner_digits (β := Radix.ten) rfl n
    refine ⟨digits 10 n, ?_, fun d hd => lt_of_mem_digits (by decide) hd, hvalue, rfl⟩
    intro hnil
    rw [hnil, horner_nil] at hvalue
    exact hn (by exact_mod_cast hvalue.symm)

/-- **A natural number in base ten** spells itself. -/
theorem wholeText_decimal (n : ℕ) : WholeText Radix.ten 10 n (decimal n).toList := by
  obtain ⟨ds, hne, hlt, hvalue, htext⟩ := exists_decimal_eq n
  have hcount : Radix.ten.digitCount = 10 := Radix.digitCount_of_value rfl
  have hlegible : Legible Radix.ten ⟨ds, []⟩ := ⟨hne, hcount ▸ hlt, List.forall_mem_nil _⟩
  have hspell : (Expansion.mk ds []).text = ds.map Digit.symbol := List.append_nil _
  have hread := readChars_text hlegible (Nat.zero_le _)
  rw [hspell] at hread
  rw [htext, String.toList_ofList]
  refine ⟨by simpa using hne, ?_, ?_⟩
  · rw [← hcount]
    exact mem_take_of_mem_map (hcount ▸ hlt)
  · rw [hread]
    unfold Expansion.value
    dsimp only
    rw [List.append_nil, List.length_nil, pow_zero, div_one, hvalue]

/-- A name does not begin with a figure. -/
theorem not_isName_decimal (n : ℕ) : isName (decimal n) = false := by
  have htext := wholeText_decimal n
  have hfigure : (Digit.symbols.take 10).all (!isNameStart ·) = true := by decide +kernel
  unfold isName
  split
  · rfl
  · rename_i c cs hcs
    have hc : c ∈ Digit.symbols.take 10 := htext.symbols c (hcs ▸ List.mem_cons_self)
    have hstart : isNameStart c = false := by simpa using List.all_eq_true.1 hfigure c hc
    rw [hstart, Bool.false_and]

/-- A blank in front of an expression does not count. -/
theorem evaluate_blank (text : String) (β : Radix) (s : Scope) :
    evaluate (" " ++ text) β s = evaluate text β s := by
  have htrim : trim (" " ++ text) = trim text := by
    have hblank : isBlank ' ' = true := by decide
    have htext : (" " ++ text).toList = ' ' :: text.toList := by
      rw [String.toList_append]
      rfl
    unfold trim
    rw [htext, List.dropWhile_cons_of_pos hblank]
  unfold evaluate
  rw [htrim]

/-- **A number in base ten** is evaluated to itself in the scope of any session. -/
theorem evaluate_decimal (hs : s.Sound) (n : ℕ) :
    ∃ ev : Evaluation, ev.value = n ∧ evaluate (decimal n) Radix.ten s = .ok ev := by
  have htext := wholeText_decimal n
  obtain ⟨settings, hsettings, -⟩ := hs.exists_settings
  have hfree : s.get? (String.ofList (decimal n).toList) = none := by
    rw [String.ofList_toList]
    cases hget : s.get? (decimal n) with
    | none => rfl
    | some value =>
      have hname := hs.named _ _ hget
      rw [not_isName_decimal] at hname
      cases hname
  obtain ⟨workings, hline⟩ := yields_signedWord false htext.ne_nil htext.isWordChar hsettings
    (htext.read_eq hfree)
  have hsign : minus false ++ (decimal n).toList = (decimal n).toList := rfl
  rw [hsign, evaluateLine_of_plain (solid_of_isWordChar htext.isWordChar).plain,
    String.ofList_toList] at hline
  exact ⟨_, rfl, (Prod.mk.inj hline).1⟩

/-! ## Lines that set a radix -/

namespace Calculator

/-- The line that sets a radix to a natural number. -/
def radixLine (setting : Setting) (b : ℕ) : String :=
  setting.name ++ " := " ++ decimal b

/-- **A line that sets a radix** binds the setting, in the scope of any session. -/
theorem binds_radixLine (hsetting : setting = .inputRadix ∨ setting = .outputRadix)
    (hb : β.value = b) (hs : s.Sound) : Binds (radixLine setting b) s setting.name b := by
  obtain ⟨ev, hvalue, hev⟩ := evaluate_decimal hs b
  have hname : isName setting.name = true := by
    rcases hsetting with rfl | rfl <;> decide +kernel
  have hleft : trim (setting.name ++ " ") = setting.name := by
    rcases hsetting with rfl | rfl <;> decide +kernel
  have hfirst : ¬ [':', '='] <:+: (setting.name ++ " ").toList := by
    rcases hsetting with rfl | rfl <;> decide +kernel
  have hdivided : Divided (radixLine setting b) (setting.name ++ " ") (" " ++ decimal b) := by
    refine ⟨?_, hfirst⟩
    unfold radixLine
    simp only [String.toList_append, List.append_assoc]
    rfl
  refine ⟨hname, _, _, ev, splitAssignment?_eq_some_iff.2 hdivided, hleft, ?_, ?_⟩
  · rw [evaluate_blank, hev]
  · have hradix : Radix.ofRat (b : ℚ) = .ok β := by
      rw [← hb]
      exact β.ofRat_self
    have hchecked : Scope.checked setting.name ev.value =
        (Radix.ofRat ev.value >>= fun _ => .ok ev.value) := by
      rcases hsetting with rfl | rfl <;> rfl
    rw [hchecked, hvalue, hradix, ok_bind]

/-- A line that sets a radix is the same in lower case, and has no blank at its ends. -/
theorem lower_radixLine (hsetting : setting = .inputRadix ∨ setting = .outputRadix) (b : ℕ) :
    lower (trim (radixLine setting b)) = radixLine setting b := by
  have htext := wholeText_decimal b
  have hchars : (radixLine setting b).toList = (setting.name ++ " := ").toList ++ (decimal b).toList := by
    unfold radixLine
    rw [String.toList_append]
  have htrim : trim (radixLine setting b) = radixLine setting b := by
    apply trim_eq_self
    · rw [hchars]
      rcases hsetting with rfl | rfl <;> rintro c ⟨⟩ <;> decide
    · rw [hchars, List.getLast?_append_of_ne_nil _ htext.ne_nil]
      intro c hc
      exact isBlank_of_isWordChar (htext.isWordChar c (List.mem_of_mem_getLast? hc))
  have hsmall : (radixLine setting b).toList.all isSmall = true := by
    have hfigure : (Digit.symbols.take 10).all isSmall = true := by decide +kernel
    rw [hchars, List.all_append, Bool.and_eq_true_iff]
    refine ⟨?_, List.all_eq_true.2 fun c hc => List.all_eq_true.1 hfigure c (htext.symbols c hc)⟩
    rcases hsetting with rfl | rfl <;> decide +kernel
  have hlower := lower_eq_self hsmall
  rw [String.ofList_toList] at hlower
  rw [htrim, hlower]

theorem scope_runExpression (c : Calculator) (line : String) :
    (c.runExpression line).scope = (result line c.scope).2 := by
  unfold runExpression
  dsimp only
  split <;> simp

/-- **The scope behind a line that binds**, whether or not the value can be shown. -/
theorem scope_runLine_of_binds (hsettings : ∃ settings, c.scope.settings = .ok settings)
    (hcommand : (lower (trim line)).toList.head? ≠ some '#')
    (h : Binds (lower (trim line)) c.scope name value) :
    (c.runLine line).scope = c.scope.define name value := by
  obtain ⟨settings, hsettings⟩ := hsettings
  obtain ⟨ev, -, heval⟩ := h.evaluateLine_eq settings.inputRadix
  have hvisible : lower (trim line) ≠ "" := by
    intro hempty
    obtain ⟨left, expr, ev, hsplit, -⟩ := h.stored
    rw [hempty] at hsplit
    cases hsplit
  rw [runLine_of_expression hvisible hcommand, scope_runExpression, scope_shown]
  unfold result
  rw [hsettings]
  dsimp only
  rw [heval]

/-- The line that sets a radix does so. -/
theorem scope_runLine_radixLine (hsetting : setting = .inputRadix ∨ setting = .outputRadix)
    (hb : β.value = b) (hs : c.scope.Sound) :
    (c.runLine (radixLine setting b)).scope = c.scope.define setting.name b := by
  have hline := lower_radixLine hsetting b
  obtain ⟨settings, hsettings, -⟩ := hs.exists_settings
  refine scope_runLine_of_binds ⟨settings, hsettings⟩ ?_ ?_
  · rw [hline]
    unfold radixLine
    rcases hsetting with rfl | rfl <;> simp [Setting.name]
  · rw [hline]
    exact binds_radixLine hsetting hb hs

/-! ## The calculator with both radices set -/

/-- The calculator after two lines that set the input radix and the output radix. -/
def inRadix (b : ℕ) : Calculator :=
  (initial.runLine (radixLine .inputRadix b)).runLine (radixLine .outputRadix b)

theorem scope_inRadix (hb : β.value = b) : (inRadix b).scope =
    (Scope.initial.define Setting.inputRadix.name b).define Setting.outputRadix.name b := by
  have hfirst : (initial.runLine (radixLine .inputRadix b)).scope =
      Scope.initial.define Setting.inputRadix.name b :=
    scope_runLine_radixLine (.inl rfl) hb Scope.sound_initial
  have hsound := (Reachable.initial.runLine (radixLine .inputRadix b)).sound
  rw [inRadix, scope_runLine_radixLine (.inr rfl) hb hsound, hfirst]

theorem get?_inRadix (hb : β.value = b) (name : String) : (inRadix b).scope.get? name =
    if Setting.outputRadix.name = name then some β.value
    else if Setting.inputRadix.name = name then some β.value else Scope.initial.get? name := by
  rw [scope_inRadix hb, Scope.get?_define, Scope.get?_define, hb]

/-- **The settings**: the two radices, and the rest as at the start. -/
theorem settings_inRadix (hb : β.value = b) :
    (inRadix b).scope.settings = .ok ⟨30, β, β, false, none⟩ := by
  have hinput : (inRadix b).scope.radixAt .inputRadix = .ok β :=
    Scope.radixAt_of_get? (get?_inRadix hb _)
  have houtput : (inRadix b).scope.radixAt .outputRadix = .ok β :=
    Scope.radixAt_of_get? (get?_inRadix hb _)
  have hprecision : (inRadix b).scope.get? Setting.precision.name = some 30 := by
    rw [get?_inRadix hb, if_neg (by decide), if_neg (by decide)]
    decide +kernel
  have hfraction : (inRadix b).scope.get? Setting.fraction.name = some 0 := by
    rw [get?_inRadix hb, if_neg (by decide), if_neg (by decide)]
    decide +kernel
  have hepsilon : (inRadix b).scope.get? Setting.epsilon.name = none := by
    rw [get?_inRadix hb, if_neg (by decide), if_neg (by decide)]
    decide +kernel
  unfold Scope.settings
  rw [hinput, ok_bind, houtput, ok_bind, hprecision, hfraction, hepsilon]
  rfl

/-- Of the texts without `$`, only the names of the two constants are bound, to numbers below
four. -/
theorem get?_inRadix_of_plain (hb : β.value = b) (hplain : '$' ∉ name.toList) :
    (name ∈ ["e", "pi"] → ∃ k : ℚ, (inRadix b).scope.get? name = some k ∧ |k| < 4) ∧
    (name ∉ ["e", "pi"] → (inRadix b).scope.get? name = none) := by
  have hsetting (setting : Setting) : setting.name ≠ name := by
    rintro rfl
    cases setting <;> exact hplain (by decide)
  have hget : (inRadix b).scope.get? name = Scope.initial.get? name := by
    rw [get?_inRadix hb, if_neg (hsetting _), if_neg (hsetting _)]
  rw [hget]
  constructor
  · intro hname
    have hsmall : |Constant.euler Constant.defaultPlaces| < 4 ∧
        |Constant.archimedes Constant.defaultPlaces| < 4 := by decide +kernel
    have hbound : Scope.initial.get? "e" = some (Constant.euler Constant.defaultPlaces) ∧
        Scope.initial.get? "pi" = some (Constant.archimedes Constant.defaultPlaces) := by
      decide +kernel
    simp only [List.mem_cons, List.not_mem_nil, or_false] at hname
    rcases hname with rfl | rfl
    · exact ⟨_, hbound.1, hsmall.1⟩
    · exact ⟨_, hbound.2, hsmall.2⟩
  · intro hname
    simp only [List.mem_cons, List.not_mem_nil, or_false, not_or] at hname
    unfold Scope.initial
    simp only [Scope.get?_define, Scope.get?_empty, if_neg (hsetting _), if_neg (Ne.symm hname.1),
      if_neg (Ne.symm hname.2)]

end Calculator

end RadixCalc
