import RadixCalc.Proofs.Assignment
import RadixCalc.Proofs.Conservation
import RadixCalc.Proofs.Pieces
import RadixCalc.Proofs.Quotients
import RadixCalc.Proofs.Recovery

/-!
# What a line reads of the scope

The outcome of a line depends on the names among its words and on the settings, and on nothing else
that the scope holds.

* `word_mem_of_toPostfix`: the words of a tree are among the tokens of its text.
* `IsWordOf.trim_eq`: a word is looked up as it stands in the text.
* `Expr.eval_congr`: a tree depends on the values of its words and on the tolerance.
* `Agree`: scopes that hold the same for the words of a text and for the settings.
* `evaluateLine_congr`: a line in two such scopes.
-/

namespace RadixCalc

open Text Token Postfix

variable {line text name w : String} {t : Token} {ts : List Token} {k : ℕ} {e : Expr} {β : Radix}
  {s s' : Scope} {value : ℚ} {cx cx' : Context} {τ : Type}

/-! ## Words of a tree -/

namespace Postfix

/-- **The words of a listing** are among the tokens that it is made of. -/
theorem word_mem_of_toPostfix {listing : List Token} (h : toPostfix ts = (k, .ok listing))
    (hw : Token.word w ∈ listing) : Token.word w ∈ ts := by
  have hmem : Token.word w ∈ listing.filter isWord := List.mem_filter.2 ⟨hw, rfl⟩
  rw [words_of_toPostfix h] at hmem
  exact (List.mem_filter.1 hmem).1

end Postfix

/-! ## Words as they stand in the text -/

/-- A word of a text is looked up as it stands there. -/
theorem IsWordOf.trim_eq (h : IsWordOf w text) : trim w = w := by
  obtain ⟨ts, hts, hw⟩ := h
  have := (solid_of_isWordChar ((scan_eq_ok_iff.1 hts).word_mem hw).2).trim_eq
  rwa [String.ofList_toList] at this

/-! ## Trees -/

/-- A word has the same value in scopes that hold the same for it. -/
theorem Context.valueOf_congr (hradix : cx.radix = cx'.radix)
    (h : cx.scope.get? (trim w) = cx'.scope.get? (trim w)) : cx.valueOf w = cx'.valueOf w := by
  unfold valueOf Numeral.read
  dsimp only
  rw [hradix, h]

/-- **A tree depends on the values of its words and on the tolerance.** -/
theorem Expr.eval_congr (hwords : ∀ w, Token.word w ∈ e.toPostfix → cx.valueOf w = cx'.valueOf w)
    (htolerance : cx.tolerance = cx'.tolerance) : e.eval cx = e.eval cx' := by
  -- a node reads the tolerance and what its operands read, whose words are among its own
  induction e with
  | word text => exact hwords text List.mem_cons_self
  | neg x ih =>
    unfold eval
    rw [ih fun w hw => hwords w (List.mem_append_left _ hw)]
  | binary o x y ihx ihy =>
    unfold eval
    rw [ihx fun w hw => hwords w (List.mem_append_left _ (List.mem_append_left _ hw)),
      ihy fun w hw => hwords w (List.mem_append_left _ (List.mem_append_right _ hw)), htolerance]
  | sqrt x ih =>
    unfold eval
    rw [ih fun w hw => hwords w (List.mem_append_left _ hw), htolerance]
  | root x n ihx ihn =>
    unfold eval
    rw [ihx fun w hw => hwords w (List.mem_append_left _ (List.mem_append_left _ hw)),
      ihn fun w hw => hwords w (List.mem_append_left _ (List.mem_append_right _ hw)), htolerance]

/-! ## Scopes that agree -/

/-- The scopes hold the same for the words of a text and for the settings, the way results are
written apart. -/
structure Agree (text : String) (s s' : Scope) : Prop where
  words : ∀ w, IsWordOf w (trim text) → s.get? w = s'.get? w
  settings : ∀ setting : Setting, setting ≠ .fraction → s.get? setting.name = s'.get? setting.name

theorem Agree.symm (h : Agree text s s') : Agree text s' s :=
  ⟨fun w hw => (h.words w hw).symm, fun setting hs => (h.settings setting hs).symm⟩

/-- The settings of such scopes fail alike, and have one tolerance. -/
theorem Agree.settings_bind (h : Agree text s s') (g : ℚ → Except Fault τ) :
    (s.settings >>= fun settings => g settings.tolerance) =
      (s'.settings >>= fun settings => g settings.tolerance) := by
  unfold Scope.settings Scope.radixAt
  rw [h.settings .inputRadix nofun, h.settings .outputRadix nofun, h.settings .precision nofun,
    h.settings .epsilon nofun]
  simp only [bind_assoc, pure_bind]
  rfl

theorem Agree.evaluate_eq (h : Agree text s s') (β : Radix) :
    evaluate text β s = evaluate text β s' := by
  rcases evaluate_cases text with ⟨-, hblank⟩ | ⟨ts, k, e, hu⟩ | ⟨f, -, hfail⟩
  · rw [hblank, hblank]
  · have heval (tolerance : ℚ) : e.eval ⟨β, s, tolerance⟩ = e.eval ⟨β, s', tolerance⟩ := by
      refine Expr.eval_congr (fun w hw => ?_) rfl
      have hword : IsWordOf w (trim text) := ⟨ts, hu.cut, word_mem_of_toPostfix hu.order hw⟩
      refine Context.valueOf_congr rfl ?_
      rw [hword.trim_eq]
      exact h.words w hword
    rw [hu.evaluate_eq, hu.evaluate_eq]
    simp only [heval]
    exact h.settings_bind fun tolerance => e.eval ⟨β, s', tolerance⟩ >>= _
  · rw [hfail, hfail]

/-! ## Lines -/

/-- The outcome of a line depends on what its expression reads. -/
theorem evaluateLine_fst_congr (h : Agree (subject line β).1 s s') :
    (evaluateLine line β s).1 = (evaluateLine line β s').1 := by
  cases hsplit : splitAssignment? line with
  | none =>
    have hplain := splitOnto_eq_none_iff.1 (Option.map_eq_none_iff.1 hsplit)
    have hsubject : subject line β = (line, β) := by
      unfold subject
      rw [hsplit]
    replace h : Agree line s s' := by rwa [hsubject] at h
    rw [evaluateLine_of_plain hplain, evaluateLine_of_plain hplain, h.evaluate_eq]
  | some sides =>
    obtain ⟨left, expr⟩ := sides
    replace h : Agree expr s s' := by rwa [(subject_of_split hsplit).1] at h
    rw [evaluateLine_of_split hsplit, evaluateLine_of_split hsplit]
    by_cases hname : isName (trim left) = true
    · rw [evaluateAssignment_checked hname, evaluateAssignment_checked hname, h.evaluate_eq]
    · rw [evaluateAssignment_of_not_isName hname, evaluateAssignment_of_not_isName hname]

/-- A line binds the same in scopes that agree on its expression. -/
theorem Binds.congr (hbinds : Binds line s name value) (h : Agree (subject line β).1 s s') :
    Binds line s' name value := by
  obtain ⟨left, expr, ev, hsplit, hleft, hev, hchecked⟩ := hbinds.stored
  replace h : Agree expr s s' := by rwa [(subject_of_split hsplit).1] at h
  have hev' : evaluate expr Radix.ten s' = .ok ev := (h.evaluate_eq Radix.ten).symm.trans hev
  exact ⟨hbinds.named, left, expr, ev, hsplit, hleft, hev', hchecked⟩

/-- A line that binds nothing leaves the scope as it is. -/
theorem evaluateLine_snd_of_not_binds (h : ¬ ∃ name value, Binds line s name value) :
    (evaluateLine line β s).2 = s := by
  rcases evaluateLine_cases line β s with ⟨f, hline⟩ | ⟨-, ev, hline⟩ | hbinds
  · rw [hline]
  · rw [hline]
  · exact absurd hbinds h

/-- **A line depends only on the names it mentions.** In two scopes that hold the same for the words
of its expression and for the settings of precision, radices and tolerance it has the same outcome,
with the value, the incidents and the workings or with the fault; and either it leaves both scopes
as they are or it binds the same name to the same value in both. -/
theorem evaluateLine_congr (h : Agree (subject line β).1 s s') :
    (evaluateLine line β s).1 = (evaluateLine line β s').1 ∧
    ((evaluateLine line β s).2 = s ∧ (evaluateLine line β s').2 = s' ∨
      ∃ name value, Binds line s name value ∧ Binds line s' name value ∧
        (evaluateLine line β s).2 = s.define name value ∧
        (evaluateLine line β s').2 = s'.define name value) := by
  refine ⟨evaluateLine_fst_congr h, ?_⟩
  by_cases hbinds : ∃ name value, Binds line s name value
  · obtain ⟨name, value, hbinds⟩ := hbinds
    have hbinds' := hbinds.congr h
    obtain ⟨_, -, hline⟩ := hbinds.evaluateLine_eq β
    obtain ⟨_, -, hline'⟩ := hbinds'.evaluateLine_eq β
    exact .inr ⟨name, value, hbinds, hbinds', by rw [hline], by rw [hline']⟩
  · -- what binds in one of the scopes binds in the other
    have hbinds' : ¬ ∃ name value, Binds line s' name value := fun ⟨name, value, h'⟩ =>
      hbinds ⟨name, value, h'.congr h.symm⟩
    exact .inl ⟨evaluateLine_snd_of_not_binds hbinds, evaluateLine_snd_of_not_binds hbinds'⟩

/-- A line that mentions `e` and the unbound `q`, in two scopes that differ in other names and in the
way results are written: both bind `y` to six, and report `q`. -/
theorem evaluateLine_congr_unbound :
    ∃ s ev, s = ((Scope.initial.define "z" 5).define "pi" 3).define "$frac" 1 ∧
      Agree (subject "y := 6*e/e - q" Radix.ten).1 Scope.initial s ∧
      (evaluateLine "y := 6*e/e - q" Radix.ten s).1 = .ok ev ∧
      ev.value = 6 ∧ ev.incidents = [.unknownDigit 'q' "10"] ∧
      Binds "y := 6*e/e - q" s "y" 6 := by
  set s := ((Scope.initial.define "z" 5).define "pi" 3).define "$frac" 1 with hs
  have hother {name : String} (h : name ≠ "z" ∧ name ≠ "pi" ∧ name ≠ "$frac") :
      Scope.initial.get? name = s.get? name := by
    rw [hs, Scope.get?_define, Scope.get?_define, Scope.get?_define, if_neg h.2.2.symm,
      if_neg h.2.1.symm, if_neg h.1.symm]
  have hagree : Agree (subject "y := 6*e/e - q" Radix.ten).1 Scope.initial s := by
    refine ⟨?_, ?_⟩
    · rintro w ⟨ts, hts, hw⟩
      have hscan : Token.scan (trim (subject "y := 6*e/e - q" Radix.ten).1) =
          .ok [.word "6", .op .mul, .word "e", .op .div, .word "e", .op .sub, .word "q"] := by
        decide +kernel
      cases hts.symm.trans hscan
      have hwords : w = "6" ∨ w = "e" ∨ w = "q" := by simpa using hw
      rcases hwords with rfl | rfl | rfl <;> exact hother (by decide)
    · intro setting hsetting
      cases setting with
      | fraction => exact absurd rfl hsetting
      | _ => exact hother (by decide)
  obtain ⟨hsame, hbinds⟩ := evaluateLine_congr hagree
  have hline : (evaluateLine "y := 6*e/e - q" Radix.ten Scope.initial).1 =
      .ok ⟨6, [.unknownDigit 'q' "10"], ⟨"6 * e / e - q", "6 e * e / q -",
        "(((6*e)/e)-q)"⟩⟩ := by decide +kernel
  refine ⟨s, _, hs, hagree, hsame.symm.trans hline, rfl, rfl, ?_⟩
  have hbound : (evaluateLine "y := 6*e/e - q" Radix.ten Scope.initial).2.get? "y" = some 6 := by
    decide +kernel
  have hfree : Scope.initial.get? "y" = none := by decide +kernel
  rcases hbinds with ⟨hkept, -⟩ | ⟨name, value, -, hbinds, hdefine, -⟩
  · rw [hkept, hfree] at hbound
    cases hbound
  · rw [hdefine, Scope.get?_define, hfree] at hbound
    split at hbound
    · cases hbound
      rename_i hname
      rwa [hname] at hbinds
    · cases hbound

end RadixCalc
