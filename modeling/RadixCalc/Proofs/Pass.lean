import RadixCalc.Fault

/-!
# Passes that may fail

A pass over a list carries a state from each element to the next and stops at the first fault.

* `bind_eq_ok_iff`, `bind_eq_error_iff`: what two computations in a row give.
* `foldlM_invariant`: what every step keeps, every pass keeps.
-/

namespace RadixCalc

variable {α σ τ : Type} {f : σ → α → Except Fault σ} {s s' : σ} {xs ys : List α}

@[simp] theorem ok_bind (a : σ) (g : σ → Except Fault τ) : (Except.ok a >>= g) = g a := rfl

@[simp] theorem error_bind (e : Fault) (g : σ → Except Fault τ) :
    (Except.error e >>= g) = .error e := rfl

theorem bind_eq_ok_iff {x : Except Fault σ} {g : σ → Except Fault τ} {b : τ} :
    (x >>= g) = .ok b ↔ ∃ a, x = .ok a ∧ g a = .ok b := by
  cases x with
  | error e => simp
  | ok a => simp

theorem bind_eq_error_iff {x : Except Fault σ} {g : σ → Except Fault τ} {e : Fault} :
    (x >>= g) = .error e ↔ x = .error e ∨ ∃ a, x = .ok a ∧ g a = .error e := by
  cases x with
  | error e' => simp
  | ok a => simp

theorem foldlM_singleton (x : α) : [x].foldlM f s = f s x := by
  simp only [List.foldlM_cons, List.foldlM_nil, bind_pure]

/-- A pass over two lists in a row goes on where the first one ends. -/
theorem foldlM_append_of_ok (h : xs.foldlM f s = .ok s') :
    (xs ++ ys).foldlM f s = ys.foldlM f s' := by
  rw [List.foldlM_append, h, ok_bind]

/-- **What every step keeps, every pass keeps.** The property may speak of the elements passed. -/
theorem foldlM_invariant {P : List α → σ → Prop}
    (step : ∀ {xs x s s'}, P xs s → f s x = .ok s' → P (xs ++ [x]) s') :
    ∀ {xs ys s s'}, P xs s → ys.foldlM f s = .ok s' → P (xs ++ ys) s' := by
  intro xs ys
  induction ys generalizing xs with
  | nil =>
    intro s s' hs h
    cases h
    rw [List.append_nil]
    exact hs
  | cons y ys ih =>
    intro s s' hs h
    rw [List.foldlM_cons] at h
    obtain ⟨s₁, h₁, h₂⟩ := bind_eq_ok_iff.1 h
    have := ih (step hs h₁) h₂
    rwa [List.append_assoc, List.singleton_append] at this

end RadixCalc
