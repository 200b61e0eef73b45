import RadixCalc.Proofs.Line

/-!
# Faults that can be recovered from

A quotient by zero, an unknown digit or a missing parenthesis stops no line, but for one way: a
root of negative order whose opposite root is zero.

* `RootOfZero`, `Expr.InvertsZero`: where a quotient by zero is not recovered from.
* `Expr.fault_of_eval`: how an evaluation fails.
* `Expr.parts`, `Context.fault?`, `Recovered`: the parts of a tree in the order of evaluation, the
  fault that each of them meets, and what becomes of these.
* `Expr.recovered_of_eval`: what is recorded when an evaluation succeeds.
* `StopsAtRoot`, `Reported`, `evaluateLine_recovers`: the same for a line.
-/

namespace RadixCalc

open Text Token Postfix

variable {x y z ε : Rat} {n : Nat} {order : Int} {f : Fault} {e : Expr} {cx : Context}
  {i j k : List Fault} {o : Operator} {text line : String} {β : Radix} {scope : Scope}
  {ev : Evaluation}

/-! ## Roots -/

/-- The root of negative order is the inverse of a root found to be zero. -/
structure RootOfZero (ε x : Rat) (order : Int) : Prop where
  tolerance : 0 < ε
  negative : order < 0
  bounded : -NthRoot.maxOrder ≤ order
  zero : NthRoot.ofOrder x order.natAbs ε = .ok 0

namespace NthRoot

theorem badRoot_of_ofPositive (h : ofPositive x n ε = .error f) : ∃ cause, f = .badRoot cause := by
  unfold ofPositive at h
  split at h <;> cases h
  exact ⟨_, rfl⟩

theorem badRoot_of_ofOrder (h : ofOrder x n ε = .error f) : ∃ cause, f = .badRoot cause := by
  unfold ofOrder at h
  split at h
  · cases h
  split at h
  · split at h
    · cases h
      exact ⟨_, rfl⟩
    · rcases bind_eq_error_iff.1 h with h | ⟨y, -, h⟩
      · exact badRoot_of_ofPositive h
      · cases h
  · exact badRoot_of_ofPositive h

end NthRoot

/-- **How a root fails**: the tolerance is not positive, or there is no such root, or it is the
inverse of a root found to be zero. -/
theorem nthRoot_error_cases (h : nthRoot x order ε = .error f) :
    (f = .badTolerance ε ∧ ε ≤ 0) ∨ (∃ cause, f = .badRoot cause) ∨
      f = .divisionByZero ∧ RootOfZero ε x order := by
  unfold nthRoot at h
  split at h
  · rename_i hε
    cases h
    exact .inl ⟨rfl, hε⟩
  rename_i hε
  refine .inr ?_
  split at h
  · cases h
    exact .inl ⟨_, rfl⟩
  split at h
  · rename_i hneg
    split at h
    · cases h
      exact .inl ⟨_, rfl⟩
    rename_i hbound
    rcases bind_eq_error_iff.1 h with h | ⟨root, hroot, h⟩
    · exact .inl (NthRoot.badRoot_of_ofOrder h)
    · -- the root of opposite order is found, and inverted
      by_cases hzero : root = 0
      · subst hzero
        cases h
        exact .inr ⟨rfl, Rat.not_le.1 hε, hneg, by omega, hroot⟩
      · rw [if_neg hzero] at h
        cases h
  · exact .inl (NthRoot.badRoot_of_ofOrder h)

theorem fault_of_nthRoot (h : nthRoot x order ε = .error f) :
    f.isRecoverable = false ∨ f = .divisionByZero ∧ RootOfZero ε x order := by
  rcases nthRoot_error_cases h with ⟨rfl, -⟩ | ⟨cause, rfl⟩ | h
  · exact .inl rfl
  · exact .inl rfl
  · exact .inr h

theorem nthRoot_of_rootOfZero (h : RootOfZero ε x order) :
    nthRoot x order ε = .error .divisionByZero := by
  have hneg := h.negative
  have hbound := h.bounded
  unfold nthRoot
  rw [if_neg (Rat.not_le.2 h.tolerance), if_neg (by omega), if_pos hneg, if_neg (by omega), h.zero]
  rfl

/-- A root of positive order divides by nothing. -/
theorem not_recoverable_of_nthRoot (horder : 0 ≤ order) (h : nthRoot x order ε = .error f) :
    f.isRecoverable = false := by
  rcases fault_of_nthRoot h with h | ⟨-, h⟩
  · exact h
  · have hneg := h.negative
    omega

/-! ## Operators and words -/

/-- How a power fails: its exponent is too large, or it is a root of positive order that fails. -/
theorem power_error_cases (h : power ε x y = .error f) :
    (∃ exponent, f = .exponentTooLarge exponent) ∨
      ∃ z order, 0 ≤ order ∧ nthRoot z order ε = .error f := by
  unfold power at h
  dsimp only at h
  split at h
  · cases h
  split at h
  · cases h
    exact .inl ⟨_, rfl⟩
  split at h
  · cases h
  split at h
  · cases h
    exact .inl ⟨_, rfl⟩
  rcases bind_eq_error_iff.1 h with h | ⟨z, -, h⟩
  · exact .inr ⟨_, _, Int.natCast_nonneg _, h⟩
  · cases h

theorem not_recoverable_of_power (h : power ε x y = .error f) : f.isRecoverable = false := by
  rcases power_error_cases h with ⟨exponent, rfl⟩ | ⟨z, order, horder, h⟩
  · rfl
  · exact not_recoverable_of_nthRoot horder h

/-- How a root of an order that is cut off fails. -/
theorem rootOf_error_cases (h : rootOf ε x y = .error f) :
    (∃ cause, f = .badRoot cause) ∨ nthRoot x (y.num.tdiv y.den) ε = .error f := by
  unfold rootOf at h
  dsimp only at h
  split at h
  · cases h
    exact .inl ⟨_, rfl⟩
  · exact .inr h

theorem not_recoverable_of_apply (h : o.apply ε x y = .error f) : f.isRecoverable = false := by
  cases o with
  | pow => exact not_recoverable_of_power h
  | _ => cases h

theorem not_recoverable_of_valueOf (h : cx.valueOf text = .error f) : f.isRecoverable = false := by
  unfold Context.valueOf at h
  split at h
  · cases h
  · split at h
    · cases h
    · rename_i hf
      cases h
      rwa [Bool.not_eq_true] at hf

/-- Whether the operator divides by zero, as a quotient or as a negative power. -/
def dividesByZero (o : Operator) (x y : Rat) : Bool :=
  match o with
  | .div => decide (y = 0)
  | .pow => decide (x = 0 ∧ y < 0)
  | _ => false

/-- A quotient by zero is zero and recorded, and nothing else is recorded. -/
theorem recorded_of_apply (h : o.apply ε x y = .ok (z, k)) :
    if dividesByZero o x y then z = 0 ∧ k = [.divisionByZero] else k = [] := by
  cases o with
  | div =>
    have hdiv : dividesByZero .div x y = decide (y = 0) := rfl
    have happly := Except.ok.inj h
    by_cases hy : y = 0
    · rw [if_pos hy] at happly
      cases happly
      rw [if_pos (by rw [hdiv]; simpa using hy)]
      exact ⟨rfl, rfl⟩
    · rw [if_neg hy] at happly
      cases happly
      rw [if_neg (by rw [hdiv]; simpa using hy)]
  | pow =>
    have hpow : dividesByZero .pow x y = decide (x = 0 ∧ y < 0) := rfl
    have h : power ε x y = .ok (z, k) := h
    unfold power powerOfZero at h
    dsimp only at h
    by_cases hx : x = 0
    · rw [if_pos hx] at h
      by_cases hy : y < 0
      · rw [if_pos hy] at h
        cases h
        rw [if_pos (by rw [hpow]; simpa using ⟨hx, hy⟩)]
        exact ⟨rfl, rfl⟩
      · rw [if_neg (by rw [hpow]; simp [hy])]
        rw [if_neg hy] at h
        split at h <;> cases h <;> rfl
    · rw [if_neg (by rw [hpow]; simp [hx])]
      rw [if_neg hx] at h
      split at h
      · cases h
      split at h
      · cases h
        rfl
      split at h
      · cases h
      · obtain ⟨w, -, h⟩ := bind_eq_ok_iff.1 h
        cases h
        rfl
  | _ =>
    cases h
    rfl

/-- The fault that a word is read with, if it can be recovered from. -/
def Context.wordFault? (cx : Context) (text : String) : Option Fault :=
  match Numeral.read text cx.radix cx.scope with
  | .ok _ => none
  | .error f => if f.isRecoverable then some f else none

/-- A word with an unknown digit is zero and recorded. -/
theorem recorded_of_valueOf (h : cx.valueOf text = .ok (x, i)) :
    i = (cx.wordFault? text).toList ∧ ∀ f, cx.wordFault? text = some f → x = 0 := by
  revert h
  unfold Context.valueOf Context.wordFault?
  cases Numeral.read text cx.radix cx.scope with
  | ok y =>
    intro h
    cases h
    refine ⟨rfl, ?_⟩
    intro f hf
    cases hf
  | error g =>
    dsimp only
    by_cases hg : g.isRecoverable = true
    · rw [if_pos hg, if_pos hg]
      intro h
      cases h
      exact ⟨rfl, fun _ _ => rfl⟩
    · rw [if_neg hg]
      intro h
      cases h

/-! ## Trees -/

namespace Expr

/-- The evaluation of the tree comes to a root of negative order whose opposite root is zero. -/
def InvertsZero (cx : Context) : Expr → Prop
  | word _ => False
  | neg x => x.InvertsZero cx
  | sqrt x => x.InvertsZero cx
  | binary _ x y => x.InvertsZero cx ∨ (∃ v, x.eval cx = .ok v) ∧ y.InvertsZero cx
  | root x n =>
    x.InvertsZero cx ∨ (∃ v, x.eval cx = .ok v) ∧ n.InvertsZero cx ∨
      ∃ a i q j, x.eval cx = .ok (a, i) ∧ n.eval cx = .ok (q, j) ∧
        RootOfZero cx.tolerance a (q.num.tdiv q.den)

/-- **How an evaluation fails**: with a fault that can be recovered from at such a root only. -/
theorem fault_of_eval (h : e.eval cx = .error f) :
    f.isRecoverable = false ∨ f = .divisionByZero ∧ e.InvertsZero cx := by
  induction e with
  | word text => exact .inl (not_recoverable_of_valueOf h)
  | neg x ih =>
    rcases bind_eq_error_iff.1 h with h | ⟨v, -, h⟩
    · exact ih h
    · cases h
  | sqrt x ih =>
    rcases bind_eq_error_iff.1 h with h | ⟨v, -, h⟩
    · exact ih h
    · rcases bind_eq_error_iff.1 h with h | ⟨y, -, h⟩
      · exact .inl (not_recoverable_of_nthRoot (by decide) h)
      · cases h
  | binary o x y ihx ihy =>
    rcases bind_eq_error_iff.1 h with h | ⟨v, hv, h⟩
    · exact (ihx h).imp_right fun h => ⟨h.1, .inl h.2⟩
    rcases bind_eq_error_iff.1 h with h | ⟨w, hw, h⟩
    · exact (ihy h).imp_right fun h => ⟨h.1, .inr ⟨⟨v, hv⟩, h.2⟩⟩
    rcases bind_eq_error_iff.1 h with h | ⟨z, -, h⟩
    · exact .inl (not_recoverable_of_apply h)
    · cases h
  | root x n ihx ihn =>
    rcases bind_eq_error_iff.1 h with h | ⟨⟨a, i⟩, hv, h⟩
    · exact (ihx h).imp_right fun h => ⟨h.1, .inl h.2⟩
    rcases bind_eq_error_iff.1 h with h | ⟨⟨q, j⟩, hw, h⟩
    · exact (ihn h).imp_right fun h => ⟨h.1, .inr (.inl ⟨⟨_, hv⟩, h.2⟩)⟩
    rcases bind_eq_error_iff.1 h with h | ⟨z, -, h⟩
    · rcases rootOf_error_cases h with ⟨cause, rfl⟩ | h
      · exact .inl rfl
      · exact (fault_of_nthRoot h).imp_right fun h =>
          ⟨h.1, .inr (.inr ⟨a, i, q, j, hv, hw, h.2⟩)⟩
    · cases h

/-- The converse: nothing before such a root stops the evaluation. -/
theorem eval_of_invertsZero (h : e.InvertsZero cx) : e.eval cx = .error .divisionByZero := by
  induction e with
  | word text => exact absurd h nofun
  | neg x ih => exact bind_eq_error_iff.2 (.inl (ih h))
  | sqrt x ih => exact bind_eq_error_iff.2 (.inl (ih h))
  | binary o x y ihx ihy =>
    rcases h with h | ⟨⟨v, hv⟩, h⟩
    · exact bind_eq_error_iff.2 (.inl (ihx h))
    · exact bind_eq_error_iff.2 (.inr ⟨v, hv, bind_eq_error_iff.2 (.inl (ihy h))⟩)
  | root x n ihx ihn =>
    rcases h with h | ⟨⟨v, hv⟩, h⟩ | ⟨a, i, q, j, hx, hn, h⟩
    · exact bind_eq_error_iff.2 (.inl (ihx h))
    · exact bind_eq_error_iff.2 (.inr ⟨v, hv, bind_eq_error_iff.2 (.inl (ihn h))⟩)
    · refine bind_eq_error_iff.2 (.inr ⟨_, hx, bind_eq_error_iff.2 (.inr ⟨_, hn, ?_⟩)⟩)
      refine bind_eq_error_iff.2 (.inl ?_)
      have hneg := h.negative
      have hbound := h.bounded
      unfold rootOf
      dsimp only
      rw [if_neg, nthRoot_of_rootOfZero h]
      simp only [Bool.or_eq_true, decide_eq_true_eq]
      omega

/-- The tree and all trees in it, in the order of evaluation. -/
def parts : Expr → List Expr
  | word text => [word text]
  | neg x => x.parts ++ [neg x]
  | sqrt x => x.parts ++ [sqrt x]
  | binary o x y => x.parts ++ y.parts ++ [binary o x y]
  | root x n => x.parts ++ n.parts ++ [root x n]

end Expr

/-- The fault that can be recovered from at the root of a tree, whatever there is below. -/
def Context.fault? (cx : Context) : Expr → Option Fault
  | .word text => cx.wordFault? text
  | .binary o x y =>
    match x.eval cx, y.eval cx with
    | .ok (a, _), .ok (b, _) => if dividesByZero o a b then some .divisionByZero else none
    | _, _ => none
  | _ => none

/-- **Recovered from all faults**: the tree has a value, every fault of a part is among the
incidents, in the order of evaluation, and the part counts as zero. -/
structure Recovered (cx : Context) (e : Expr) (incidents : List Fault) : Prop where
  value : ∃ v, e.eval cx = .ok (v, incidents)
  recorded : incidents = e.parts.filterMap cx.fault?
  substituted : ∀ x ∈ e.parts, ∀ f, cx.fault? x = some f → ∃ j, x.eval cx = .ok (0, j)

/-- A node behind its operands: what it records itself comes last. -/
theorem recovered_node {before : List Expr} (hparts : e.parts = before ++ [e])
    (hv : e.eval cx = .ok (x, i))
    (hi : i = before.filterMap cx.fault? ++ (cx.fault? e).toList)
    (hbefore : ∀ y ∈ before, ∀ f, cx.fault? y = some f → ∃ j, y.eval cx = .ok (0, j))
    (hzero : ∀ f, cx.fault? e = some f → x = 0) : Recovered cx e i := by
  refine ⟨⟨x, hv⟩, ?_, ?_⟩
  · have hlast : [e].filterMap cx.fault? = (cx.fault? e).toList := by
      rw [List.filterMap_cons, List.filterMap_nil]
      cases cx.fault? e <;> rfl
    rw [hparts, List.filterMap_append, hlast, hi]
  · intro y hy f hf
    rw [hparts, List.mem_append, List.mem_singleton] at hy
    rcases hy with hy | rfl
    · exact hbefore y hy f hf
    · rw [hzero f hf] at hv
      exact ⟨i, hv⟩

/-- What the operands of a node have recovered from, together. -/
theorem substituted_append {e₁ e₂ : Expr} (h₁ : Recovered cx e₁ i) (h₂ : Recovered cx e₂ j) :
    ∀ y ∈ e₁.parts ++ e₂.parts, ∀ f, cx.fault? y = some f → ∃ j, y.eval cx = .ok (0, j) := by
  intro y hy
  rcases List.mem_append.1 hy with hy | hy
  · exact h₁.substituted y hy
  · exact h₂.substituted y hy

/-- **An evaluation that succeeds** has recovered from all faults. -/
theorem Expr.recovered_of_eval (h : e.eval cx = .ok (x, i)) : Recovered cx e i := by
  induction e generalizing x i with
  | word text =>
    obtain ⟨hi, hzero⟩ := recorded_of_valueOf h
    -- a leaf has no operands, and records what it is read with
    have hparts : (word text).parts = [] ++ [word text] := rfl
    have hfault : cx.fault? (word text) = cx.wordFault? text := rfl
    rw [← hfault] at hi hzero
    refine recovered_node hparts h ?_ nofun hzero
    rw [List.filterMap_nil, List.nil_append]
    exact hi
  | neg e ih =>
    obtain ⟨⟨y, i'⟩, hy, hx⟩ := bind_eq_ok_iff.1 h
    have hr := ih hy
    cases hx
    refine recovered_node rfl h ?_ hr.substituted nofun
    exact hr.recorded.trans (List.append_nil _).symm
  | sqrt e ih =>
    obtain ⟨⟨y, i'⟩, hy, hx⟩ := bind_eq_ok_iff.1 h
    obtain ⟨z, -, hx⟩ := bind_eq_ok_iff.1 hx
    have hr := ih hy
    cases hx
    refine recovered_node rfl h ?_ hr.substituted nofun
    exact hr.recorded.trans (List.append_nil _).symm
  | binary o e₁ e₂ ih₁ ih₂ =>
    obtain ⟨⟨a, i₁⟩, ha, hx⟩ := bind_eq_ok_iff.1 h
    obtain ⟨⟨b, i₂⟩, hb, hx⟩ := bind_eq_ok_iff.1 hx
    obtain ⟨⟨z, k⟩, hz, hx⟩ := bind_eq_ok_iff.1 hx
    have hr₁ := ih₁ ha
    have hr₂ := ih₂ hb
    have hrec := recorded_of_apply hz
    have hfault : cx.fault? (.binary o e₁ e₂) =
        if dividesByZero o a b then some .divisionByZero else none := by
      show (match e₁.eval cx, e₂.eval cx with | .ok (a, _), .ok (b, _) => _ | _, _ => none) = _
      rw [ha, hb]
    cases hx
    refine recovered_node rfl h ?_ (substituted_append hr₁ hr₂) ?_
    · rw [List.filterMap_append, ← hr₁.recorded, ← hr₂.recorded, hfault]
      by_cases hdiv : dividesByZero o a b = true
      · rw [if_pos hdiv] at hrec ⊢
        rw [hrec.2]
        rfl
      · rw [if_neg hdiv] at hrec ⊢
        rw [hrec]
        rfl
    · intro f hf
      by_cases hdiv : dividesByZero o a b = true
      · rw [if_pos hdiv] at hrec
        exact hrec.1
      · rw [hfault, if_neg hdiv] at hf
        cases hf
  | root e₁ e₂ ih₁ ih₂ =>
    obtain ⟨⟨a, i₁⟩, ha, hx⟩ := bind_eq_ok_iff.1 h
    obtain ⟨⟨b, i₂⟩, hb, hx⟩ := bind_eq_ok_iff.1 hx
    obtain ⟨z, -, hx⟩ := bind_eq_ok_iff.1 hx
    have hr₁ := ih₁ ha
    have hr₂ := ih₂ hb
    cases hx
    refine recovered_node rfl h ?_ (substituted_append hr₁ hr₂) nofun
    rw [List.filterMap_append, ← hr₁.recorded, ← hr₂.recorded]
    exact (List.append_nil _).symm

/-! ## Settings and assignments -/

theorem not_recoverable_of_ofRat {q : Rat} (h : Radix.ofRat q = .error f) :
    f.isRecoverable = false := by
  unfold Radix.ofRat at h
  split at h <;> cases h
  rfl

theorem not_recoverable_of_radixAt {setting : Setting} (h : scope.radixAt setting = .error f) :
    f.isRecoverable = false := by
  unfold Scope.radixAt at h
  split at h
  · exact not_recoverable_of_ofRat h
  · cases h

theorem not_recoverable_of_settings (h : scope.settings = .error f) : f.isRecoverable = false := by
  unfold Scope.settings at h
  rcases bind_eq_error_iff.1 h with h | ⟨input, -, h⟩
  · exact not_recoverable_of_radixAt h
  rcases bind_eq_error_iff.1 h with h | ⟨output, -, h⟩
  · exact not_recoverable_of_radixAt h
  · cases h

/-- How a value is refused for a name: a radix setting gets no radix, or a tolerance is not
positive. -/
theorem checked_error_cases {name : String} (h : Scope.checked name x = .error f) :
    (∃ setting, (setting = .inputRadix ∨ setting = .outputRadix) ∧ name = Setting.name setting ∧
      Radix.ofRat x = .error f) ∨ ∃ reason, f = .badSetting name x reason := by
  unfold Scope.checked at h
  split at h
  · rename_i hname
    rcases bind_eq_error_iff.1 h with h | ⟨β, -, h⟩
    · rw [Bool.or_eq_true, decide_eq_true_eq, decide_eq_true_eq] at hname
      rcases hname with hname | hname
      · exact .inl ⟨_, .inl rfl, hname, h⟩
      · exact .inl ⟨_, .inr rfl, hname, h⟩
    · cases h
  split at h
  · split at h <;> cases h
    exact .inr ⟨_, rfl⟩
  split at h <;> cases h

theorem not_recoverable_of_checked {name : String} (h : Scope.checked name x = .error f) :
    f.isRecoverable = false := by
  rcases checked_error_cases h with ⟨setting, -, -, h⟩ | ⟨reason, rfl⟩
  · exact not_recoverable_of_ofRat h
  · rfl

/-! ## Lines -/

/-- The expression of a line and the radix in which it is read. -/
def subject (line : String) (β : Radix) : String × Radix :=
  match splitAssignment? line with
  | some (_, expr) => (expr, Radix.ten)
  | none => (line, β)

/-- An assignment of the line is to a name. -/
def Named (line : String) : Prop :=
  ∀ name expr, splitAssignment? line = some (name, expr) → isName (trim name) = true

/-- The expression of the line is evaluated, and comes to a root of negative order whose opposite
root is zero. -/
def StopsAtRoot (line : String) (β : Radix) (scope : Scope) : Prop :=
  Named line ∧ ∃ ts k e settings, Understood (subject line β).1 ts k e ∧
    scope.settings = .ok settings ∧
    e.InvertsZero ⟨(subject line β).2, scope, settings.tolerance⟩

/-- The expression of the line is blank and there is nothing to report, or it has a tree when the
`k` parentheses that are missing are supplied, and the incidents are these and then the faults that
the evaluation has recovered from. -/
def Reported (line : String) (β : Radix) (scope : Scope) (incidents : List Fault) : Prop :=
  trim (subject line β).1 = "" ∧ incidents = [] ∨
  ∃ ts k e settings i, Understood (subject line β).1 ts k e ∧
    toPostfix (ts ++ List.replicate k Token.closing) = (0, .ok e.toPostfix) ∧
    scope.settings = .ok settings ∧
    Recovered ⟨(subject line β).2, scope, settings.tolerance⟩ e i ∧
    incidents = List.replicate k Fault.missingClose ++ i

/-- A line without `:=` is its own expression. -/
theorem subject_of_plain (h : splitAssignment? line = none) : subject line β = (line, β) ∧
    Named line ∧ (evaluateLine line β scope).1 = evaluate line β scope := by
  unfold subject Named evaluateLine
  rw [h]
  dsimp only
  exact ⟨rfl, nofun, rfl⟩

theorem subject_of_split {name expr : String} (h : splitAssignment? line = some (name, expr)) :
    subject line β = (expr, Radix.ten) ∧ (Named line ↔ isName (trim name) = true) := by
  unfold subject Named
  rw [h]
  refine ⟨rfl, fun hnamed => hnamed name expr rfl, ?_⟩
  rintro hname _ _ ⟨⟩
  exact hname

/-- **How a line fails**: like its expression, or because it binds what is no name, or because the
value is refused for the name. -/
theorem evaluateLine_error_cases (h : (evaluateLine line β scope).1 = .error f) :
    (Named line ∧ evaluate (subject line β).1 (subject line β).2 scope = .error f) ∨
    ∃ name expr, splitAssignment? line = some (name, expr) ∧
      (f = .badName (trim name) ∨ ∃ ev, evaluate expr Radix.ten scope = .ok ev ∧
        Scope.checked (trim name) ev.value = .error f) := by
  cases hsplit : splitAssignment? line with
  | none =>
    obtain ⟨hsubject, hnamed, hline⟩ := subject_of_plain hsplit
    rw [hline] at h
    rw [hsubject]
    exact .inl ⟨hnamed, h⟩
  | some sides =>
    obtain ⟨name, expr⟩ := sides
    obtain ⟨hsubject, hnamed⟩ := subject_of_split (β := β) hsplit
    rw [evaluateLine_of_split hsplit] at h
    by_cases hname : isName (trim name) = true
    · rw [evaluateAssignment_fst hname] at h
      rcases bind_eq_error_iff.1 h with h | ⟨ev, hev, h⟩
      · rw [hsubject, hnamed]
        exact .inl ⟨hname, h⟩
      rcases bind_eq_error_iff.1 h with h | ⟨bound, -, h⟩
      · unfold Scope.assign at h
        rw [if_pos hname] at h
        rcases bind_eq_error_iff.1 h with h | ⟨value, -, h⟩
        · exact .inr ⟨name, expr, rfl, .inr ⟨ev, hev, h⟩⟩
        · cases h
      · cases h
    · rw [evaluateAssignment_of_not_isName hname] at h
      cases h
      exact .inr ⟨name, expr, rfl, .inl rfl⟩

/-- A line fails like its expression, or with a fault that cannot be recovered from. -/
theorem fault_of_evaluateLine (h : (evaluateLine line β scope).1 = .error f) :
    f.isRecoverable = false ∨
      Named line ∧ evaluate (subject line β).1 (subject line β).2 scope = .error f := by
  rcases evaluateLine_error_cases h with h | ⟨name, expr, -, rfl | ⟨ev, -, h⟩⟩
  · exact .inr h
  · exact .inl rfl
  · exact .inl (not_recoverable_of_checked h)

theorem evaluateLine_of_fault (hname : Named line)
    (h : evaluate (subject line β).1 (subject line β).2 scope = .error f) :
    (evaluateLine line β scope).1 = .error f := by
  cases hsplit : splitAssignment? line with
  | none =>
    obtain ⟨hsubject, -, hline⟩ := subject_of_plain hsplit
    rw [hsubject] at h
    rw [hline, h]
  | some sides =>
    obtain ⟨name, expr⟩ := sides
    obtain ⟨hsubject, hnamed⟩ := subject_of_split (β := β) hsplit
    rw [hsubject] at h
    rw [evaluateLine_of_split hsplit, evaluateAssignment_fst (hnamed.1 hname), h, error_bind]

/-- A line that succeeds reports the incidents of its expression. -/
theorem incidents_of_evaluateLine (h : (evaluateLine line β scope).1 = .ok ev) :
    ∃ ev', evaluate (subject line β).1 (subject line β).2 scope = .ok ev' ∧
      ev.incidents = ev'.incidents := by
  cases hsplit : splitAssignment? line with
  | none =>
    obtain ⟨hsubject, -, hline⟩ := subject_of_plain hsplit
    rw [hline] at h
    rw [hsubject]
    exact ⟨ev, h, rfl⟩
  | some sides =>
    obtain ⟨name, expr⟩ := sides
    rw [evaluateLine_of_split hsplit] at h
    rw [(subject_of_split hsplit).1]
    by_cases hname : isName (trim name) = true
    · rw [evaluateAssignment_fst hname] at h
      obtain ⟨ev', heval, h⟩ := bind_eq_ok_iff.1 h
      obtain ⟨bound, -, h⟩ := bind_eq_ok_iff.1 h
      cases h
      exact ⟨ev', heval, rfl⟩
    · rw [evaluateAssignment_of_not_isName hname] at h
      cases h

/-- A text fails with a fault that can be recovered from only where its tree does. -/
theorem fault_of_evaluate (h : evaluate text β scope = .error f) :
    f.isRecoverable = false ∨ f = .divisionByZero ∧ ∃ ts k e settings, Understood text ts k e ∧
      scope.settings = .ok settings ∧ e.InvertsZero ⟨β, scope, settings.tolerance⟩ := by
  rcases evaluate_cases text with ⟨-, hblank⟩ | ⟨ts, k, e, hu⟩ | ⟨g, hg, hfail⟩
  · rw [hblank β scope] at h
    cases h
  · rcases hu.evaluate_eq_error_iff.1 h with h | ⟨settings, hs, h⟩
    · exact .inl (not_recoverable_of_settings h)
    · rcases Expr.fault_of_eval h with h | ⟨rfl, hinverts⟩
      · exact .inl h
      · exact .inr ⟨rfl, ts, k, e, settings, hu, hs, hinverts⟩
  · rw [hfail β scope] at h
    cases h
    exact .inl (Fault.not_recoverable_of_syntactic hg)

/-- **Recoverable faults and lines.** A line stopped by one is stopped by a quotient by zero, and
that exactly when it comes to a root of negative order whose opposite root is zero; a line that
succeeds reports all that it meets. -/
theorem evaluateLine_recovers (line : String) (β : Radix) (scope : Scope) :
    (∀ f, (evaluateLine line β scope).1 = .error f → f.isRecoverable = true →
      f = .divisionByZero) ∧
    ((evaluateLine line β scope).1 = .error .divisionByZero ↔ StopsAtRoot line β scope) ∧
    ∀ ev, (evaluateLine line β scope).1 = .ok ev → Reported line β scope ev.incidents := by
  have stopped {f : Fault} (h : (evaluateLine line β scope).1 = .error f)
      (hf : f.isRecoverable = true) : f = .divisionByZero ∧ StopsAtRoot line β scope := by
    rcases fault_of_evaluateLine h with h | ⟨hname, h⟩
    · rw [hf] at h
      cases h
    · rcases fault_of_evaluate h with h | ⟨rfl, hinverts⟩
      · rw [hf] at h
        cases h
      · exact ⟨rfl, hname, hinverts⟩
  -- a quotient by zero can be recovered from, so `stopped` gives one half of the equivalence
  refine ⟨fun f h hf => (stopped h hf).1, ⟨fun h => (stopped h rfl).2, ?_⟩, ?_⟩
  · rintro ⟨hname, ts, k, e, settings, hu, hs, h⟩
    refine evaluateLine_of_fault hname (hu.evaluate_eq_error_iff.2 (.inr ⟨settings, hs, ?_⟩))
    exact Expr.eval_of_invertsZero h
  · intro ev h
    obtain ⟨ev', heval, hincidents⟩ := incidents_of_evaluateLine h
    rw [hincidents]
    rcases evaluate_cases (subject line β).1 with ⟨hblank, hzero⟩ | ⟨ts, k, e, hu⟩ | ⟨g, -, hfail⟩
    · rw [hzero (subject line β).2 scope] at heval
      cases heval
      exact .inl ⟨hblank, rfl⟩
    · obtain ⟨settings, v, i, hs, hv, rfl⟩ := hu.evaluate_eq_ok_iff.1 heval
      exact .inr ⟨ts, k, e, settings, i, hu, toPostfix_supplied hu.order, hs,
        Expr.recovered_of_eval hv, rfl⟩
    · rw [hfail (subject line β).2 scope] at heval
      cases heval

/-- The quotient by zero in `(1/0+2` is reported behind the parenthesis that is missing. -/
theorem evaluateLine_of_open_quotient :
    Reported "(1/0+2" Radix.ten Scope.empty [.missingClose, .divisionByZero] := by
  have h : (evaluateLine "(1/0+2" Radix.ten Scope.empty).1 =
      .ok ⟨2, [.missingClose, .divisionByZero], "( 1 / 0 + 2", "1 0 / 2 +", "((1/0)+2)"⟩ := by
    decide +kernel
  exact (evaluateLine_recovers _ _ _).2.2 _ h

/-- The root of order `-2` of zero is the quotient of one by zero, and stops the line. -/
theorem evaluateLine_of_negative_root_of_zero :
    (evaluateLine "root(0,-2)" Radix.ten Scope.empty).1 = .error .divisionByZero ∧
      Fault.divisionByZero.isRecoverable = true := by
  decide +kernel

end RadixCalc
