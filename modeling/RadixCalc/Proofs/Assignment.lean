import RadixCalc.Proofs.Line

/-!
# What a line does to the scope

A line binds one name or none, and it binds after all else has succeeded.

* `Binds`: the line is an assignment that binds a name to a value.
* `evaluateLine_cases`: a line fails or is an expression, and leaves the scope as it is, or it
  binds.
* `Scope.exists_settings_define`: settings stay settings when what is bound has been checked.
-/

namespace RadixCalc

open Text

variable {line name : String} {β : Radix} {s : Scope} {x value : Rat} {ev : Evaluation}

/-! ## The settings behind an assignment -/

namespace Scope

theorem exists_radix_of_checked {setting : Setting}
    (hsetting : setting = .inputRadix ∨ setting = .outputRadix)
    (h : checked setting.name x = .ok value) : ∃ γ, Radix.ofRat value = .ok γ := by
  have hname : (setting.name = Setting.inputRadix.name ||
      setting.name = Setting.outputRadix.name) = true := by
    rcases hsetting with rfl | rfl <;> rfl
  unfold checked at h
  rw [if_pos hname] at h
  obtain ⟨γ, hγ, h⟩ := bind_eq_ok_iff.1 h
  cases h
  exact ⟨γ, hγ⟩

/-- The radix of a setting is still one when a checked value is bound to any name. -/
theorem exists_radixAt_define {setting : Setting} {γ : Radix}
    (hsetting : setting = .inputRadix ∨ setting = .outputRadix)
    (hradix : s.radixAt setting = .ok γ) (h : checked name x = .ok value) :
    ∃ γ', (s.define name value).radixAt setting = .ok γ' := by
  unfold radixAt at hradix ⊢
  rw [get?_define]
  by_cases hname : name = setting.name
  · subst hname
    rw [if_pos rfl]
    exact exists_radix_of_checked hsetting h
  · rw [if_neg hname]
    exact ⟨γ, hradix⟩

theorem settings_eq_ok_iff : (∃ settings, s.settings = .ok settings) ↔
    (∃ γ, s.radixAt .inputRadix = .ok γ) ∧ ∃ γ, s.radixAt .outputRadix = .ok γ := by
  unfold settings
  constructor
  · rintro ⟨settings, h⟩
    obtain ⟨γ, hγ, h⟩ := bind_eq_ok_iff.1 h
    obtain ⟨γ', hγ', -⟩ := bind_eq_ok_iff.1 h
    exact ⟨⟨γ, hγ⟩, ⟨γ', hγ'⟩⟩
  · rintro ⟨⟨γ, hγ⟩, ⟨γ', hγ'⟩⟩
    rw [hγ, ok_bind, hγ', ok_bind]
    exact ⟨_, rfl⟩

/-- **Settings stay settings** when a checked value is bound to any name. -/
theorem exists_settings_define (hs : ∃ settings, s.settings = .ok settings)
    (h : checked name x = .ok value) : ∃ settings, (s.define name value).settings = .ok settings := by
  obtain ⟨⟨γ, hγ⟩, ⟨γ', hγ'⟩⟩ := settings_eq_ok_iff.1 hs
  exact settings_eq_ok_iff.2
    ⟨exists_radixAt_define (.inl rfl) hγ h, exists_radixAt_define (.inr rfl) hγ' h⟩

/-- The settings are read from the names of settings alone. -/
theorem settings_define (h : ∀ setting : Setting, name ≠ setting.name) :
    (s.define name value).settings = s.settings := by
  unfold settings radixAt
  simp only [get?_define, if_neg (h _)]

end Scope

/-! ## The scope behind a line -/

/-- The line is an assignment whose expression has a value, and `value` is what a name stores of
it. -/
structure Binds (line : String) (s : Scope) (name : String) (value : Rat) : Prop where
  named : isName name = true
  stored : ∃ left expr ev, splitAssignment? line = some (left, expr) ∧ trim left = name ∧
    evaluate expr Radix.ten s = .ok ev ∧ Scope.checked name ev.value = .ok value

theorem assign_eq_ok (hname : isName name = true) (h : Scope.checked name x = .ok value) :
    s.assign name x = .ok (s.define name value) := by
  unfold Scope.assign
  rw [if_pos hname, h]
  rfl

/-- A line that binds has the value bound, and nothing else of the scope changes. -/
theorem Binds.evaluateLine_eq (h : Binds line s name value) (β : Radix) :
    ∃ ev, ev.value = value ∧ evaluateLine line β s = (.ok ev, s.define name value) := by
  obtain ⟨left, expr, ev, hsplit, rfl, hev, hchecked⟩ := h.stored
  refine ⟨{ ev with value := value }, rfl, ?_⟩
  rw [evaluateLine_of_split hsplit]
  unfold evaluateAssignment
  dsimp only
  rw [if_pos h.named, hev]
  dsimp only
  rw [assign_eq_ok h.named hchecked]
  dsimp only
  rw [Scope.get?_define, if_pos rfl]
  rfl

/-- **What a line does to the scope.** It fails and changes nothing, or it is an expression and
changes nothing, or it binds. -/
theorem evaluateLine_cases (line : String) (β : Radix) (s : Scope) :
    (∃ f, evaluateLine line β s = (.error f, s)) ∨
    (splitAssignment? line = none ∧ ∃ ev, evaluateLine line β s = (.ok ev, s)) ∨
    ∃ name value, Binds line s name value := by
  cases hsplit : splitAssignment? line with
  | none =>
    have hline : evaluateLine line β s = (evaluate line β s, s) := by
      unfold evaluateLine
      rw [hsplit]
    rw [hline]
    cases evaluate line β s with
    | error f => exact .inl ⟨f, rfl⟩
    | ok ev => exact .inr (.inl ⟨rfl, ev, rfl⟩)
  | some sides =>
    obtain ⟨left, expr⟩ := sides
    rw [evaluateLine_of_split hsplit]
    by_cases hname : isName (trim left) = true
    · cases hev : evaluate expr Radix.ten s with
      | error f =>
        refine .inl ⟨f, ?_⟩
        unfold evaluateAssignment
        dsimp only
        rw [if_pos hname, hev]
      | ok ev =>
        cases hchecked : Scope.checked (trim left) ev.value with
        | error f =>
          refine .inl ⟨f, ?_⟩
          have hassign : s.assign (trim left) ev.value = .error f := by
            unfold Scope.assign
            rw [if_pos hname, hchecked]
            rfl
          unfold evaluateAssignment
          dsimp only
          rw [if_pos hname, hev]
          dsimp only
          rw [hassign]
        | ok value =>
          exact .inr (.inr ⟨trim left, value, hname, left, expr, ev, hsplit, rfl, hev, hchecked⟩)
    · exact .inl ⟨_, evaluateAssignment_of_not_isName hname⟩

end RadixCalc
