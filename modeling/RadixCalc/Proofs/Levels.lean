import RadixCalc.Postfix
import RadixCalc.Proofs.Grammar
import RadixCalc.Proofs.Pass

/-!
# Levels

What the pass over the tokens does to the levels, whatever the tokens are.

* `arity_cases`: the functions and their numbers of arguments.
* `Move`, `step_eq_ok_iff`: what a step can do.
* `Move.valued`, `Move.nesting`: a value has just ended exactly behind the tokens that end one, and
  the levels open and close with the parentheses.
* `Passed`, `exists_passed`: what a list comes through that has a postfix order.
* `toPostfix_supplied`: the parentheses supplied at its end are closed like any other.
* `Stop`, `stop_of_step`: how a step can fail.
* `toPostfix_error_cases`, `refusal_of_toPostfix`: where the lists fail that have none, and how.
-/

namespace RadixCalc

/-- **There are two functions.** -/
theorem arity_cases {f : String} {n : Nat} (h : arity? f = some n) :
    f = "root" ∧ n = 2 ∨ f = "sqrt" ∧ n = 1 := by
  unfold arity? at h
  split at h
  · exact .inl ⟨‹_›, (Option.some.inj h).symm⟩
  split at h
  · exact .inr ⟨‹_›, (Option.some.inj h).symm⟩
  · cases h

namespace Token

/-- The number of parentheses open behind tokens of which `n` are open before, unless one is closed
that is not open. -/
def nesting : Nat → List Token → Option Nat
  | n, [] => some n
  | n, opening :: ts => nesting (n + 1) ts
  | 0, closing :: _ => none
  | n + 1, closing :: ts => nesting n ts
  | n, _ :: ts => nesting n ts

theorem nesting_append (n : Nat) (ts us : List Token) :
    nesting n (ts ++ us) = (nesting n ts).bind (nesting · us) := by
  induction ts generalizing n with
  | nil => rfl
  | cons t ts ih =>
    cases t with
    | closing =>
      cases n with
      | zero => rfl
      | succ n => exact ih n
    | opening => exact ih (n + 1)
    | _ => simp only [List.cons_append, nesting, ih]

theorem nesting_replicate (k : Nat) : nesting k (List.replicate k closing) = some 0 := by
  induction k with
  | zero => rfl
  | succ k ih => exact ih

end Token

namespace Postfix

open State Token

variable {s s' : State} {t : Token} {ts : List Token} {k n m : Nat} {listing : List Token}

/-! ## Parentheses -/

namespace State

/-- The state inside a parenthesis that has been opened behind `s`, `written` being written since
then. -/
def inside (s : State) (written : List Token) (call : Option (String × Nat)) : State :=
  ⟨written ++ s.written, ⟨[], call⟩, s.level :: s.outer, false⟩

theorem reverse_flushed (s : State) : s.flushed.reverse = s.written.reverse ++ s.level.waiting := by
  unfold flushed
  rw [List.reverse_append, List.reverse_reverse]

theorem opened_eq (hf : ∀ f, s.level.waiting.head? ≠ some (.call f)) :
    s.opened = s.inside [] none := by
  unfold opened
  split
  · rename_i f waiting heq
    rw [heq] at hf
    exact absurd rfl (hf f)
  · rfl

/-- The name of a function does not wait any more inside its parenthesis. -/
theorem opened_await_call (s : State) (f : String) :
    (s.await (.call f)).opened = s.inside [] (some (f, 0)) := rfl

end State

/-- The calls of the levels, innermost first. -/
def State.calls (s : State) : List (Option (String × Nat)) :=
  s.level.call :: s.outer.map Level.call

/-! ## What a step can do -/

/-- The steps of the pass that do not fail. -/
inductive Move : State → Token → State → Prop
  | word {s : State} {text : String} (hv : s.valued = false) :
      Move s (.word text) { s with written := .word text :: s.written, valued := true }
  | call {s : State} {f : String} (hv : s.valued = false) : Move s (.call f) (s.await (.call f))
  | opening {s : State} (hv : s.valued = false) : Move s .opening s.opened
  | comma {s : State} {f : String} {n : Nat} (hv : s.valued = true)
      (hc : s.level.call = some (f, n)) :
      Move s .comma ⟨s.flushed, ⟨[], some (f, n + 1)⟩, s.outer, false⟩
  | closeGroup {s : State} {level : Level} {outer : List Level} (hv : s.valued = true)
      (ho : s.outer = level :: outer) (hc : s.level.call = none) :
      Move s .closing ⟨s.flushed, level, outer, true⟩
  | closeCall {s : State} {level : Level} {outer : List Level} {f : String} {n : Nat}
      (ho : s.outer = level :: outer) (hc : s.level.call = some (f, n))
      (hn : (if s.valued then n + 1 else n) = (arity? f).getD 0) :
      Move s .closing ⟨.call f :: s.flushed, level, outer, true⟩
  | combine {s : State} {o : Operator} (hv : s.valued = true) : Move s (.op o) (s.combine o)
  | plus {s : State} (hv : s.valued = false) : Move s (.op .add) s
  | minus {s : State} (hv : s.valued = false) : Move s (.op .sub) (s.await .neg)

theorem move_of_close (h : s.close = .ok s') : Move s .closing s' := by
  unfold close at h
  split at h
  · cases h
  rename_i level outer ho
  split at h
  · rename_i f n hc
    dsimp only at h
    by_cases hn : (if s.valued then n + 1 else n) = (arity? f).getD 0
    · rw [if_pos hn] at h
      cases h
      exact .closeCall ho hc hn
    · rw [if_neg hn] at h
      cases h
  · rename_i hc
    split at h
    · rename_i hv
      cases h
      exact .closeGroup hv ho hc
    · cases h

theorem move_of_separate (h : s.separate = .ok s') : Move s .comma s' := by
  unfold separate at h
  split at h
  · rename_i hv
    split at h
    · rename_i f n hc
      cases h
      exact .comma hv hc
    · cases h
  · cases h

/-- **What a step can do.** -/
theorem move_of_step (h : step s t = .ok s') : Move s t s' := by
  have hv : s.valued = false ∨ s.valued = true := by cases s.valued <;> simp
  cases t with
  | closing => exact move_of_close h
  | comma => exact move_of_separate h
  | neg => cases h
  | word | call | opening =>
    rcases hv with hv | hv
    · rw [step, if_neg (by rw [hv]; decide)] at h
      cases h
      constructor
      exact hv
    · rw [step, if_pos hv] at h
      cases h
  | op o =>
    rcases hv with hv | hv
    · rw [step, if_neg (by rw [hv]; decide)] at h
      cases o with
      | add => cases h; exact .plus hv
      | sub => cases h; exact .minus hv
      | _ => cases h
    · rw [step, if_pos hv] at h
      cases h
      exact .combine hv

/-- Each of them is a step. -/
theorem Move.step_eq (h : Move s t s') : step s t = .ok s' := by
  cases h with
  | word hv | call hv | opening hv => rw [step, if_neg (by rw [hv]; decide)]
  | plus hv | minus hv =>
    rw [step, if_neg (by rw [hv]; decide)]
    rfl
  | combine hv => rw [step, if_pos hv]
  | comma hv hc =>
    rw [step, separate, if_pos hv, hc]
  | closeGroup hv ho hc =>
    rw [step, close, ho]
    dsimp only
    rw [hc]
    dsimp only
    rw [if_pos hv]
  | closeCall ho hc hn =>
    rw [step, close, ho]
    dsimp only
    rw [hc]
    dsimp only
    rw [if_pos hn]

theorem step_eq_ok_iff : step s t = .ok s' ↔ Move s t s' :=
  ⟨move_of_step, Move.step_eq⟩

theorem opened_outer_length (s : State) : s.opened.outer.length = s.outer.length + 1 := by
  unfold opened
  split <;> rfl

/-- An opening parenthesis that no function waits for is that of a group. -/
theorem step_opening (hv : s.valued = false) (hf : ∀ f, s.level.waiting.head? ≠ some (.call f)) :
    step s .opening = .ok (s.inside [] none) := by
  rw [← opened_eq hf]
  exact (Move.opening hv).step_eq

/-- Whether a value has just ended can be told from the last token. -/
theorem Move.valued (h : Move s t s') : s'.valued = t.endsValue := by
  cases h with
  | opening hv => unfold opened; split <;> rfl
  | plus hv => exact hv
  | _ => rfl

/-- The levels open and close with the parentheses. -/
theorem Move.nesting (h : Move s t s') : nesting s.outer.length [t] = some s'.outer.length := by
  cases h with
  | opening hv => rw [opened_outer_length]; rfl
  | closeGroup hv ho hc => rw [ho]; rfl
  | closeCall ho hc hn => rw [ho]; rfl
  | _ => rfl

theorem nesting_of_run (h : ts.foldlM step s = .ok s') :
    nesting s.outer.length ts = some s'.outer.length := by
  have h₀ : nesting s.outer.length [] = some s.outer.length := rfl
  refine foldlM_invariant (P := fun ts s' => nesting s.outer.length ts = some s'.outer.length)
    ?_ h₀ h
  intro xs x s₁ s₂ hP hs
  rw [nesting_append, hP]
  exact (move_of_step hs).nesting

/-! ## The end of the tokens -/

/-- The parentheses supplied are closed like any other. -/
theorem closeMissing_eq_ok (h : s.closeMissing m n = (k, .ok s')) :
    k = m + n ∧ (List.replicate n Token.closing).foldlM step s = .ok s' := by
  induction n generalizing s m with
  | zero =>
    cases h
    exact ⟨rfl, rfl⟩
  | succ n ih =>
    rw [closeMissing] at h
    split at h
    · rename_i s₁ hs
      obtain ⟨hk, hrun⟩ := ih h
      refine ⟨by omega, ?_⟩
      rw [List.replicate_succ, List.foldlM_cons]
      show (s.close >>= _) = _
      rw [hs, ok_bind, hrun]
    · cases h

/-- **What a list comes through that has a postfix order**: the state behind its tokens, and the one
behind the `k` parentheses left open, where all that waits is written. -/
structure Passed (ts : List Token) (k : Nat) (listing : List Token) (s s' : State) : Prop where
  run : ts.foldlM step start = .ok s
  valued : ts ≠ [] → s.valued = true
  outer : s.outer.length = k
  supplied : (List.replicate k Token.closing).foldlM step s = .ok s'
  written : listing = s'.flushed.reverse

theorem exists_passed (h : toPostfix ts = (k, .ok listing)) : ∃ s s', Passed ts k listing s s' := by
  unfold toPostfix at h
  split at h
  · cases h
  rename_i s hrun
  split at h
  · cases h
  rename_i hv
  have hv' : ts ≠ [] → s.valued = true := by
    intro hne
    cases ts with
    | nil => exact absurd rfl hne
    | cons t ts => simpa using hv
  cases hcm : s.closeMissing 0 s.outer.length with
  | mk k' closed =>
    rw [hcm] at h
    cases closed with
    | error f => cases h
    | ok s' =>
      cases h
      obtain ⟨hk, hrun'⟩ := closeMissing_eq_ok hcm
      rw [Nat.zero_add] at hk
      subst hk
      exact ⟨s, s', hrun, hv', rfl, hrun', rfl⟩

/-- All levels are closed at the end. -/
theorem Passed.closed (h : Passed ts k listing s s') : s'.outer = [] := by
  have hn := nesting_of_run h.supplied
  rw [h.outer, nesting_replicate] at hn
  exact List.eq_nil_of_length_eq_zero (Option.some.inj hn).symm

/-- A value has ended at the end. -/
theorem Passed.ends (h : Passed ts k listing s s') (hne : ts ≠ []) : s'.valued = true := by
  have hrun := h.supplied
  cases k with
  | zero =>
    cases hrun
    exact h.valued hne
  | succ k =>
    rw [List.replicate_succ', List.foldlM_append] at hrun
    obtain ⟨s₁, -, h₁⟩ := bind_eq_ok_iff.1 hrun
    rw [foldlM_singleton] at h₁
    exact (move_of_step h₁).valued

/-- The parentheses supplied are those left open. -/
theorem nesting_of_toPostfix (h : toPostfix ts = (k, .ok listing)) : nesting 0 ts = some k := by
  obtain ⟨s, s', hp⟩ := exists_passed h
  have hn := nesting_of_run hp.run
  rwa [hp.outer] at hn

/-- When the pass over all tokens comes behind a value outside of all parentheses, what is written
and what waits of it are the postfix order. -/
theorem toPostfix_of_run (h : ts.foldlM step start = .ok s) (hv : s.valued = true)
    (ho : s.outer = []) : toPostfix ts = (0, .ok s.flushed.reverse) := by
  unfold toPostfix
  rw [h]
  show (if !ts.isEmpty && !s.valued then _ else _) = _
  rw [hv, Bool.not_true, Bool.and_false, ho]
  rfl

/-- **The parentheses supplied** are put where they would stand. -/
theorem toPostfix_supplied (h : toPostfix ts = (k, .ok listing)) :
    toPostfix (ts ++ List.replicate k .closing) = (0, .ok listing) := by
  by_cases hne : ts = []
  · subst hne
    cases h
    rfl
  · obtain ⟨s, s', hp⟩ := exists_passed h
    have hrun : (ts ++ List.replicate k Token.closing).foldlM step start = .ok s' :=
      (foldlM_append_of_ok hp.run).trans hp.supplied
    rw [toPostfix_of_run hrun (hp.ends hne) hp.closed, hp.written]

/-! ## Faults -/

/-- An expression that is refused is malformed, or calls a function with the wrong number of
arguments. -/
inductive Refusal : Fault → Prop
  | malformed (cause : Malformation) : Refusal (.malformed cause)
  | wrongArity (name : String) (expected received : Nat) :
      Refusal (.wrongArity name expected received)

variable {fault : Fault}

/-- The steps of the pass that fail, each with its fault. -/
inductive Stop : State → Token → Fault → Prop
  | word {s : State} {text : String} (hv : s.valued = true) :
      Stop s (.word text) (.malformed .valueAfterValue)
  | call {s : State} {f : String} (hv : s.valued = true) :
      Stop s (.call f) (.malformed .callAfterValue)
  | opening {s : State} (hv : s.valued = true) : Stop s .opening (.malformed .groupAfterValue)
  | emptyArgument {s : State} (hv : s.valued = false) : Stop s .comma (.malformed .emptyArgument)
  | strayComma {s : State} (hv : s.valued = true) (hc : s.level.call = none) :
      Stop s .comma (.malformed .strayComma)
  | strayClose {s : State} (ho : s.outer = []) : Stop s .closing (.malformed .strayClose)
  | emptyGroup {s : State} (hv : s.valued = false) (hc : s.level.call = none) :
      Stop s .closing (.malformed .emptyGroup)
  | wrongArity {s : State} {f : String} {n received : Nat} (hc : s.level.call = some (f, n))
      (hr : received = if s.valued then n + 1 else n) (hn : received ≠ (arity? f).getD 0) :
      Stop s .closing (.wrongArity f ((arity? f).getD 0) received)
  | missingLeft {s : State} {o : Operator} (hv : s.valued = false) :
      Stop s (.op o) (.malformed .missingLeft)
  | neg {s : State} : Stop s .neg (.malformed .signOutOfPlace)

theorem stop_of_close (h : s.close = .error fault) : Stop s .closing fault := by
  unfold close at h
  split at h
  · rename_i ho
    cases h
    exact .strayClose ho
  split at h
  · rename_i f n hc
    dsimp only at h
    by_cases hn : (if s.valued then n + 1 else n) = (arity? f).getD 0
    · rw [if_pos hn] at h
      cases h
    · rw [if_neg hn] at h
      cases h
      exact .wrongArity hc rfl hn
  · rename_i hc
    split at h
    · cases h
    · rename_i hv
      cases h
      exact .emptyGroup (by simpa using hv) hc

theorem stop_of_separate (h : s.separate = .error fault) : Stop s .comma fault := by
  unfold separate at h
  split at h
  · rename_i hv
    split at h
    · cases h
    · rename_i hc
      cases h
      exact .strayComma hv hc
  · rename_i hv
    cases h
    exact .emptyArgument (by simpa using hv)

/-- **How a step can fail.** -/
theorem stop_of_step (h : step s t = .error fault) : Stop s t fault := by
  have hv : s.valued = false ∨ s.valued = true := by cases s.valued <;> simp
  cases t with
  | closing => exact stop_of_close h
  | comma => exact stop_of_separate h
  | neg =>
    cases h
    exact .neg
  | op o =>
    rcases hv with hv | hv
    · rw [step, if_neg (by rw [hv]; decide)] at h
      cases o <;> cases h <;> exact .missingLeft hv
    · rw [step, if_pos hv] at h
      cases h
  | word | call | opening =>
    rcases hv with hv | hv
    · rw [step, if_neg (by rw [hv]; decide)] at h
      cases h
    · rw [step, if_pos hv] at h
      cases h
      constructor
      exact hv

theorem Stop.refusal (h : Stop s t fault) : Refusal fault := by
  cases h with
  | wrongArity => exact .wrongArity _ _ _
  | _ => exact .malformed _

theorem refusal_of_run (h : ts.foldlM step s = .error fault) : Refusal fault := by
  induction ts generalizing s with
  | nil => cases h
  | cons t ts ih =>
    rw [List.foldlM_cons] at h
    rcases bind_eq_error_iff.1 h with h | ⟨s₁, -, h⟩
    · exact (stop_of_step h).refusal
    · exact ih h

/-- What stops the parentheses supplied is one of them. -/
theorem exists_stop_of_closeMissing (h : s.closeMissing m n = (k, .error fault)) :
    ∃ s', Stop s' .closing fault := by
  induction n generalizing s m with
  | zero => cases h
  | succ n ih =>
    rw [closeMissing] at h
    split at h
    · exact ih h
    · rename_i f hf
      cases h
      exact ⟨s, stop_of_close hf⟩

/-- **Where a list fails that has no postfix order**: in the pass over its tokens, at their end, or
at a parenthesis supplied there. -/
theorem toPostfix_error_cases (h : toPostfix ts = (k, .error fault)) :
    ts.foldlM step start = .error fault ∨ fault = .malformed .missingLast ∨
      ∃ s, Stop s .closing fault := by
  unfold toPostfix at h
  split at h
  · rename_i f hf
    cases h
    exact .inl hf
  rename_i s hs
  split at h
  · cases h
    exact .inr (.inl rfl)
  cases hcm : s.closeMissing 0 s.outer.length with
  | mk k' closed =>
    rw [hcm] at h
    cases closed with
    | ok s' => cases h
    | error f =>
      cases h
      exact .inr (.inr (exists_stop_of_closeMissing hcm))

/-- **Every fault of the pass is a refusal.** -/
theorem refusal_of_toPostfix (h : toPostfix ts = (k, .error fault)) : Refusal fault := by
  rcases toPostfix_error_cases h with h | rfl | ⟨s, h⟩
  · exact refusal_of_run h
  · exact .malformed _
  · exact h.refusal

end Postfix

end RadixCalc
