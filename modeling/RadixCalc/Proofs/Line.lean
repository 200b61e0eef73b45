import RadixCalc.Evaluation
import RadixCalc.Proofs.Cutting
import RadixCalc.Proofs.Listing

/-!
# What becomes of a line

The stages from a text to its value, as one statement for each way they can end.

* `exists_blanks_trim`, `trim_eq_self`: what is taken off the ends of a text.
* `Numeral.read_blank`, `read_bound`, `read_eq_readChars`: the three ways that a text is read.
* `Understood`: the tokens of a text, the parentheses supplied at their end, and their tree.
* `evaluate_cases`: a text is blank, or has a tree, or fails in a way that depends on nothing else.
* `Understood.evaluate_eq_ok_iff`, `Understood.evaluate_eq_error_iff`: the value of a text with a
  tree.
* `evaluateLine_of_plain`, `evaluateLine_of_split`: lines without `:=` and with it.
* `evaluateAssignment_checked`, `evaluateAssignment_eq_ok_iff`: the outcome of an assignment.
-/

namespace RadixCalc

open Text Token Postfix

variable {text : String} {ts : List Token} {k : Nat} {e : Expr} {β : Radix} {scope : Scope}
  {ev : Evaluation} {f : Fault}

/-! ## Blanks at the ends -/

namespace Text

/-- A text is the trimmed text between blanks. -/
theorem exists_blanks_trim (s : String) : ∃ b b' : List Char, (∀ c ∈ b, isBlank c = true) ∧
    (∀ c ∈ b', isBlank c = true) ∧ s.toList = b ++ (trim s).toList ++ b' := by
  let rest := s.toList.dropWhile isBlank
  refine ⟨s.toList.takeWhile isBlank, (rest.reverse.takeWhile isBlank).reverse, ?_, ?_, ?_⟩
  · intro c hc
    exact List.mem_takeWhile_imp hc
  · intro c hc
    exact List.mem_takeWhile_imp (List.mem_reverse.1 hc)
  · have hrest : rest = (trim s).toList ++ (rest.reverse.takeWhile isBlank).reverse := by
      unfold trim dropEnd
      rw [String.toList_ofList, ← List.reverse_append, List.takeWhile_append_dropWhile,
        List.reverse_reverse]
    rw [List.append_assoc, ← hrest, List.takeWhile_append_dropWhile]

/-- Nothing is taken off a text that neither begins nor ends with a blank. -/
theorem trim_eq_self {s : String} (hhead : ∀ c ∈ s.toList.head?, isBlank c = false)
    (hlast : ∀ c ∈ s.toList.getLast?, isBlank c = false) : trim s = s := by
  have h₁ : s.toList.dropWhile isBlank = s.toList := by
    cases hs : s.toList with
    | nil => rfl
    | cons c cs => rw [List.dropWhile_cons, hhead c (by rw [hs]; rfl)]; rfl
  have h₂ : s.toList.reverse.dropWhile isBlank = s.toList.reverse := by
    cases hs : s.toList.reverse with
    | nil => rfl
    | cons c cs =>
      have hc : c ∈ s.toList.getLast? := by
        rw [← List.head?_reverse, hs]
        rfl
      rw [List.dropWhile_cons, hlast c hc]
      rfl
  unfold trim dropEnd
  rw [h₁, h₂, List.reverse_reverse, String.ofList_toList]

end Text

/-! ## Reading a text -/

namespace Numeral

theorem read_blank (h : trim text = "") : read text β scope = .ok 0 := by
  unfold read
  rw [h]
  rfl

/-- A bound name is its value. -/
theorem read_bound {x : Rat} (hvisible : trim text ≠ "") (h : scope.get? (trim text) = some x) :
    read text β scope = .ok x := by
  unfold read
  dsimp only
  rw [if_neg (by rwa [String.isEmpty_iff]), h]

/-- A text that is no name is read as its characters. -/
theorem read_eq_readChars (hvisible : trim text ≠ "") (hfree : scope.get? (trim text) = none) :
    read text β scope = readChars β (trim text).toList := by
  unfold read
  dsimp only
  rw [if_neg (by rwa [String.isEmpty_iff]), hfree]

end Numeral

/-! ## Texts with a tree -/

/-- The tokens `ts` of a text without the blanks at its ends are put in the postfix order of the
tree `e`, which is not too deep, and `k` closing parentheses are supplied for it. -/
structure Understood (text : String) (ts : List Token) (k : Nat) (e : Expr) : Prop where
  cut : scan (trim text) = .ok ts
  order : toPostfix ts = (k, .ok e.toPostfix)
  shallow : e.depth ≤ Expr.maxDepth

/-- A text with a tree is not blank. -/
theorem Understood.visible (h : Understood text ts k e) : trim text ≠ "" := by
  intro hempty
  have hcut := h.cut
  rw [hempty] at hcut
  have hts : ts = [] := by
    unfold scan at hcut
    rw [String.toList_empty, scanOnto] at hcut
    exact (Except.ok.inj hcut).symm
  have horder := h.order
  rw [hts] at horder
  exact e.toPostfix_ne_nil (Except.ok.inj (Prod.mk.inj horder).2).symm

/-- A text has one tree. -/
theorem Understood.unique {ts' : List Token} {k' : Nat} {e' : Expr} (h : Understood text ts k e)
    (h' : Understood text ts' k' e') : e = e' := by
  have hts : ts = ts' := Except.ok.inj (h.cut.symm.trans h'.cut)
  subst hts
  have horder := h.order.symm.trans h'.order
  exact Expr.toPostfix_injective (Except.ok.inj (Prod.mk.inj horder).2)

theorem evaluate_of_blank (h : trim text = "") : evaluate text β scope = .ok ⟨0, [], {}⟩ := by
  unfold evaluate
  rw [h]
  rfl

theorem evaluate_of_visible (h : trim text ≠ "") : evaluate text β scope =
    (scan (trim text) >>= fun tokens => (toPostfix tokens).2 >>= fun listing =>
      Expr.ofPostfix listing >>= fun tree => scope.settings >>= fun settings =>
        tree.eval ⟨β, scope, settings.tolerance⟩ >>= fun v =>
          .ok ⟨v.1, List.replicate (toPostfix tokens).1 .missingClose ++ v.2,
            joined tokens, joined listing, tree.render⟩) := by
  have hvisible : ¬ (trim text).isEmpty = true := by
    rw [String.isEmpty_iff]
    exact h
  unfold evaluate
  dsimp only
  rw [if_neg hvisible]
  rfl

/-- The value of a text with a tree. -/
theorem Understood.evaluate_eq (h : Understood text ts k e) : evaluate text β scope =
    (scope.settings >>= fun settings => e.eval ⟨β, scope, settings.tolerance⟩ >>= fun v =>
      .ok ⟨v.1, List.replicate k .missingClose ++ v.2,
        joined ts, joined e.toPostfix, e.render⟩) := by
  rw [evaluate_of_visible h.visible, h.cut, ok_bind, h.order]
  show (Expr.ofPostfix e.toPostfix >>= _) = _
  rw [Expr.ofPostfix_toPostfix, if_pos h.shallow, ok_bind]

theorem Understood.evaluate_eq_ok_iff (h : Understood text ts k e) :
    evaluate text β scope = .ok ev ↔ ∃ settings v i, scope.settings = .ok settings ∧
      e.eval ⟨β, scope, settings.tolerance⟩ = .ok (v, i) ∧
      ev = ⟨v, List.replicate k .missingClose ++ i, joined ts, joined e.toPostfix, e.render⟩ := by
  rw [h.evaluate_eq, bind_eq_ok_iff]
  constructor
  · rintro ⟨settings, hs, h⟩
    obtain ⟨⟨v, i⟩, hv, h⟩ := bind_eq_ok_iff.1 h
    cases h
    exact ⟨settings, v, i, hs, hv, rfl⟩
  · rintro ⟨settings, v, i, hs, hv, rfl⟩
    exact ⟨settings, hs, bind_eq_ok_iff.2 ⟨(v, i), hv, rfl⟩⟩

theorem Understood.evaluate_eq_error_iff (h : Understood text ts k e) :
    evaluate text β scope = .error f ↔ scope.settings = .error f ∨ ∃ settings,
      scope.settings = .ok settings ∧ e.eval ⟨β, scope, settings.tolerance⟩ = .error f := by
  rw [h.evaluate_eq, bind_eq_error_iff]
  constructor
  · rintro (h | ⟨settings, hs, h⟩)
    · exact .inl h
    · rcases bind_eq_error_iff.1 h with h | ⟨v, -, h⟩
      · exact .inr ⟨settings, hs, h⟩
      · cases h
  · rintro (h | ⟨settings, hs, h⟩)
    · exact .inl h
    · exact .inr ⟨settings, hs, bind_eq_error_iff.2 (.inl h)⟩

/-! ## Texts without a tree -/

/-- Whether a fault is found in a text, before anything is evaluated. -/
def Fault.isSyntactic : Fault → Bool
  | .unexpectedChar _ | .unknownFunction _ | .malformed _ | .wrongArity _ _ _ => true
  | _ => false

theorem Fault.not_recoverable_of_syntactic (h : f.isSyntactic = true) :
    f.isRecoverable = false := by
  cases f <;> simp_all [isSyntactic, isRecoverable]

theorem Postfix.Refusal.isSyntactic (h : Refusal f) : f.isSyntactic = true := by
  cases h <;> rfl

theorem syntactic_of_scan (h : scan text = .error f) : f.isSyntactic = true := by
  rcases fault_of_scanOnto h with ⟨c, rfl⟩ | ⟨name, rfl⟩ <;> rfl

namespace Expr

open Stack

theorem syntactic_of_node {st : Stack} {d : Nat} (h : node st e d = .error f) :
    f.isSyntactic = true := by
  unfold node at h
  split at h <;> cases h
  rfl

theorem syntactic_of_push {st : Stack} {t : Token} (h : push st t = .error f) :
    f.isSyntactic = true := by
  have unary {g : Expr → Expr} (h : st.unary g = .error f) : f.isSyntactic = true := by
    unfold Stack.unary at h
    split at h
    · exact syntactic_of_node h
    · cases h; rfl
  have binary {g : Expr → Expr → Expr} (h : st.binary g = .error f) : f.isSyntactic = true := by
    unfold Stack.binary at h
    split at h
    · exact syntactic_of_node h
    · cases h; rfl
  cases t with
  | word text => cases h
  | neg => exact unary h
  | op o => exact binary h
  | call name =>
    rw [push] at h
    split at h
    · exact unary h
    split at h
    · exact binary h
    · cases h; rfl
  | opening | closing | comma => cases h; rfl

theorem syntactic_of_foldlM_push {st : Stack} (h : ts.foldlM push st = .error f) :
    f.isSyntactic = true := by
  induction ts generalizing st with
  | nil => cases h
  | cons t ts ih =>
    rw [List.foldlM_cons] at h
    rcases bind_eq_error_iff.1 h with h | ⟨st₁, -, h⟩
    · exact syntactic_of_push h
    · exact ih h

theorem syntactic_of_ofPostfix (h : ofPostfix ts = .error f) : f.isSyntactic = true := by
  unfold ofPostfix at h
  split at h
  · cases h
  · cases h; rfl
  · rename_i g hg
    cases h
    exact syntactic_of_foldlM_push hg

end Expr

/-- **What becomes of a text.** It is blank and counts as zero, or it has a tree, or it fails,
whatever the radix and the scope, with a fault found in the text. -/
theorem evaluate_cases (text : String) :
    (trim text = "" ∧ ∀ β scope, evaluate text β scope = .ok ⟨0, [], {}⟩) ∨
    (∃ ts k e, Understood text ts k e) ∨
    ∃ f, f.isSyntactic = true ∧ ∀ β scope, evaluate text β scope = .error f := by
  by_cases hvisible : trim text = ""
  · exact .inl ⟨hvisible, fun β scope => evaluate_of_blank hvisible⟩
  refine .inr ?_
  -- the stages before the settings are read see the text alone
  cases hcut : scan (trim text) with
  | error f =>
    refine .inr ⟨f, syntactic_of_scan hcut, fun β scope => ?_⟩
    rw [evaluate_of_visible hvisible, hcut, error_bind]
  | ok ts =>
    rcases horder : toPostfix ts with ⟨k, ordered⟩
    cases ordered with
    | error f =>
      refine .inr ⟨f, (refusal_of_toPostfix horder).isSyntactic, fun β scope => ?_⟩
      rw [evaluate_of_visible hvisible, hcut, ok_bind, horder]
      rfl
    | ok listing =>
      cases htree : Expr.ofPostfix listing with
      | error f =>
        refine .inr ⟨f, Expr.syntactic_of_ofPostfix htree, fun β scope => ?_⟩
        rw [evaluate_of_visible hvisible, hcut, ok_bind, horder]
        show (Expr.ofPostfix listing >>= _) = _
        rw [htree, error_bind]
      | ok e =>
        obtain ⟨rfl, hshallow⟩ := Expr.ofPostfix_eq_ok_iff.1 htree
        exact .inl ⟨ts, k, e, hcut, horder, hshallow⟩

/-! ## Assignments -/

/-- A text is divided when `:=` stands in it, and only then. -/
theorem splitOnto_eq_none_iff {done s : List Char} :
    splitOnto done s = none ↔ ¬ [':', '='] <:+: s := by
  fun_induction splitOnto done s with
  | case1 done rest =>
    constructor
    · intro h; cases h
    · intro h
      exact absurd (List.IsPrefix.isInfix ⟨rest, rfl⟩) h
  | case2 done c rest hne ih =>
    rw [ih, List.infix_cons_iff]
    constructor
    · rintro h (⟨t, ht⟩ | h')
      · cases ht
        exact hne t rfl rfl
      · exact h h'
    · intro h h'
      exact h (.inr h')
  | case3 done =>
    constructor
    · rintro - h
      cases List.infix_nil.1 h
    · intro _; rfl

/-- A line without `:=` is an expression, and leaves the scope as it is. -/
theorem evaluateLine_of_plain (h : ¬ [':', '='] <:+: text.toList) :
    evaluateLine text β scope = (evaluate text β scope, scope) := by
  unfold evaluateLine splitAssignment?
  rw [splitOnto_eq_none_iff.2 h]
  rfl

/-- A line with `:=` is an assignment, whatever the radix. -/
theorem evaluateLine_of_split {name expr : String} (h : splitAssignment? text = some (name, expr)) :
    evaluateLine text β scope = evaluateAssignment name expr scope := by
  unfold evaluateLine
  rw [h]

/-- The outcome of an assignment to a name: its expression is evaluated, and then the name is
bound. -/
theorem evaluateAssignment_fst {name expr : String} (hname : isName (trim name) = true) :
    (evaluateAssignment name expr scope).1 =
      (evaluate expr Radix.ten scope >>= fun ev =>
        scope.assign (trim name) ev.value >>= fun bound =>
          .ok { ev with value := (bound.get? (trim name)).getD ev.value }) := by
  unfold evaluateAssignment
  dsimp only
  rw [if_pos hname]
  cases evaluate expr Radix.ten scope with
  | error f => rfl
  | ok ev =>
    rw [ok_bind]
    dsimp only
    cases scope.assign (trim name) ev.value with
    | error f => rfl
    | ok bound => rfl

/-- The value of an assignment to a name is that of its expression, checked for the name. -/
theorem evaluateAssignment_checked {name expr : String} (hname : isName (trim name) = true) :
    (evaluateAssignment name expr scope).1 =
      (evaluate expr Radix.ten scope >>= fun ev =>
        Scope.checked (trim name) ev.value >>= fun value => .ok { ev with value }) := by
  rw [evaluateAssignment_fst hname]
  refine congrArg (evaluate expr Radix.ten scope >>= ·) (funext fun ev => ?_)
  unfold Scope.assign
  rw [if_pos hname]
  cases Scope.checked (trim name) ev.value with
  | error f => rfl
  | ok value =>
    rw [ok_bind]
    show (Except.ok _ >>= _) = _
    rw [ok_bind, ok_bind, Scope.get?_define, if_pos rfl, Option.getD_some]

theorem evaluateAssignment_of_not_isName {name expr : String}
    (hname : ¬ isName (trim name) = true) :
    evaluateAssignment name expr scope = (.error (.badName (trim name)), scope) := by
  unfold evaluateAssignment
  dsimp only
  rw [if_neg hname]

/-- An assignment succeeds when its expression has a value that the name may be bound to. -/
theorem evaluateAssignment_eq_ok_iff {name expr : String} {bound : Scope} :
    evaluateAssignment name expr scope = (.ok ev, bound) ↔
      isName (trim name) = true ∧ ∃ ev₀, evaluate expr Radix.ten scope = .ok ev₀ ∧
        scope.assign (trim name) ev₀.value = .ok bound ∧
        ev = { ev₀ with value := (bound.get? (trim name)).getD ev₀.value } := by
  by_cases hname : isName (trim name) = true
  · unfold evaluateAssignment
    dsimp only
    rw [if_pos hname]
    cases evaluate expr Radix.ten scope with
    | error f => simp
    | ok ev₀ =>
      dsimp only
      cases hassign : scope.assign (trim name) ev₀.value with
      | error f => simp [hassign]
      | ok behind =>
        constructor
        · rintro ⟨⟩
          exact ⟨hname, ev₀, rfl, hassign, rfl⟩
        · rintro ⟨-, _, ⟨⟩, hbound, rfl⟩
          rw [hassign] at hbound
          cases hbound
          rfl
  · simp [evaluateAssignment_of_not_isName hname, hname]

end RadixCalc
