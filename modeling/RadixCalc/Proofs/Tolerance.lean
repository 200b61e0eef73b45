import RadixCalc.Proofs.Numerals
import RadixCalc.Proofs.Recovery

/-!
# Faults of the settings

The tolerance of roots and the radices come from the settings. If the scope holds settings whose
tolerance is positive, no evaluation fails for the sake of one of them; a line fails so only if it
assigns to the setting of a radix what is none.

* `Fault.isOfSettings`: the faults of a tolerance and of a radix.
* `Expr.eval_error_cases`: what stops the evaluation of a tree.
* `Scope.Usable`: settings with a positive tolerance.
* `Scope.Usable.fault_of_evaluateLine`: a line that fails with such a fault.
-/

namespace RadixCalc

open Text

variable {f : Fault} {x y : Rat} {order : Int} {e : Expr} {cx : Context} {o : Operator}
  {text line : String} {β : Radix} {scope : Scope}

/-- Whether a fault is that of a tolerance or of a radix. -/
def Fault.isOfSettings : Fault → Bool
  | .badTolerance _ | .badRadix _ => true
  | _ => false

/-! ## Evaluations -/

/-- A word has a value unless its fraction is too long: an unknown digit is recovered from. -/
theorem Context.eq_of_valueOf_error (h : cx.valueOf text = .error f) :
    f = .malformed .tooManyDigits := by
  unfold valueOf at h
  cases hread : Numeral.read text cx.radix cx.scope with
  | ok x =>
    rw [hread] at h
    cases h
  | error g =>
    rw [hread] at h
    rcases Numeral.read_error hread with ⟨c, rfl⟩ | rfl
    · cases h
    · exact (Except.error.inj h).symm

/-- **What stops the evaluation of a tree** is one of its words, powers or roots. -/
theorem Expr.eval_error_cases (h : e.eval cx = .error f) :
    f = .malformed .tooManyDigits ∨ (∃ x y, power cx.tolerance x y = .error f) ∨
      (∃ x, nthRoot x 2 cx.tolerance = .error f) ∨ ∃ x n, rootOf cx.tolerance x n = .error f := by
  induction e with
  | word text => exact .inl (Context.eq_of_valueOf_error h)
  | neg x ih =>
    rcases bind_eq_error_iff.1 h with h | ⟨v, -, h⟩
    · exact ih h
    · cases h
  | binary o x y ihx ihy =>
    rcases bind_eq_error_iff.1 h with h | ⟨v, -, h⟩
    · exact ihx h
    rcases bind_eq_error_iff.1 h with h | ⟨w, -, h⟩
    · exact ihy h
    rcases bind_eq_error_iff.1 h with h | ⟨z, -, h⟩
    · -- a power is the only operator that may fail
      cases o with
      | pow => exact .inr (.inl ⟨_, _, h⟩)
      | _ => cases h
    · cases h
  | sqrt x ih =>
    rcases bind_eq_error_iff.1 h with h | ⟨v, -, h⟩
    · exact ih h
    rcases bind_eq_error_iff.1 h with h | ⟨z, -, h⟩
    · exact .inr (.inr (.inl ⟨_, h⟩))
    · cases h
  | root x n ihx ihn =>
    rcases bind_eq_error_iff.1 h with h | ⟨v, -, h⟩
    · exact ihx h
    rcases bind_eq_error_iff.1 h with h | ⟨w, -, h⟩
    · exact ihn h
    rcases bind_eq_error_iff.1 h with h | ⟨z, -, h⟩
    · exact .inr (.inr (.inr ⟨_, _, h⟩))
    · cases h

theorem isOfSettings_of_nthRoot {ε : Rat} (hε : 0 < ε) (h : nthRoot x order ε = .error f) :
    f.isOfSettings = false := by
  rcases nthRoot_error_cases h with ⟨-, hle⟩ | ⟨cause, rfl⟩ | ⟨rfl, -⟩
  · exact absurd hε (Rat.not_lt.2 hle)
  · rfl
  · rfl

/-- **An evaluation with a positive tolerance** fails for no fault of the settings. -/
theorem isOfSettings_of_eval (hε : 0 < cx.tolerance) (h : e.eval cx = .error f) :
    f.isOfSettings = false := by
  rcases Expr.eval_error_cases h with rfl | ⟨x, y, h⟩ | ⟨x, h⟩ | ⟨x, n, h⟩
  · rfl
  · rcases power_error_cases h with ⟨exponent, rfl⟩ | ⟨z, order, -, h⟩
    · rfl
    · exact isOfSettings_of_nthRoot hε h
  · exact isOfSettings_of_nthRoot hε h
  · rcases rootOf_error_cases h with ⟨cause, rfl⟩ | h
    · rfl
    · exact isOfSettings_of_nthRoot hε h

theorem Fault.isOfSettings_of_syntactic (h : f.isSyntactic = true) : f.isOfSettings = false := by
  cases f <;> simp_all [isSyntactic, isOfSettings]

/-! ## Lines -/

/-- The scope holds settings, and their tolerance is positive. -/
def Scope.Usable (scope : Scope) : Prop :=
  ∃ settings, scope.settings = .ok settings ∧ 0 < settings.tolerance

/-- The line assigns `q`, which is no radix, to the setting of one. -/
def AssignsBadRadix (line : String) (scope : Scope) (q : Rat) : Prop :=
  ∃ name expr setting ev, splitAssignment? line = some (name, expr) ∧
    trim name = Setting.name setting ∧ (setting = .inputRadix ∨ setting = .outputRadix) ∧
    evaluate expr Radix.ten scope = .ok ev ∧ ev.value = q ∧ Radix.ofRat q = .error (.badRadix q)

theorem ofRat_error {q : Rat} (h : Radix.ofRat q = .error f) : f = .badRadix q := by
  unfold Radix.ofRat at h
  split at h <;> cases h
  rfl

namespace Scope.Usable

theorem isOfSettings_of_evaluate (hs : scope.Usable) (h : evaluate text β scope = .error f) :
    f.isOfSettings = false := by
  obtain ⟨settings, hsettings, hε⟩ := hs
  rcases evaluate_cases text with ⟨-, hblank⟩ | ⟨ts, k, e, hu⟩ | ⟨g, hg, hfail⟩
  · rw [hblank β scope] at h
    cases h
  · -- roots are taken with the tolerance of the scope, whatever the radix of the words
    rcases hu.evaluate_eq_error_iff.1 h with h | ⟨settings', hsettings', h⟩
    · rw [hsettings] at h
      cases h
    · rw [hsettings] at hsettings'
      cases hsettings'
      exact isOfSettings_of_eval hε h
  · rw [hfail β scope] at h
    cases h
    exact Fault.isOfSettings_of_syntactic hg

/-- **A line fails for a fault of the settings** only if it assigns what is no radix to the setting
of one. -/
theorem fault_of_evaluateLine (hs : scope.Usable) (h : (evaluateLine line β scope).1 = .error f)
    (hf : f.isOfSettings = true) : ∃ q, f = .badRadix q ∧ AssignsBadRadix line scope q := by
  rcases evaluateLine_error_cases h with ⟨-, h⟩ | ⟨name, expr, hsplit, rfl | ⟨ev, hev, h⟩⟩
  · rw [hs.isOfSettings_of_evaluate h] at hf
    cases hf
  · cases hf
  · -- of all checks of a value, that of a radix alone reports one
    rcases checked_error_cases h with ⟨setting, hradix, hname, h⟩ | ⟨reason, rfl⟩
    · obtain rfl := ofRat_error h
      exact ⟨_, rfl, name, expr, setting, ev, hsplit, hname, hradix, hev, rfl, h⟩
    · cases hf

end Scope.Usable

end RadixCalc
