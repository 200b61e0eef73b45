import RadixCalc.Proofs.Cutting
import RadixCalc.Proofs.Listing

/-!
# Every operator finds its operands

The pass over the tokens keeps no values, only whether one has just ended and how many arguments
have. That is enough: whatever is accepted, even where a call is closed behind an operator, is the
postfix order of one tree.

* `Expr.Trees`: the postfix orders of a number of trees, one behind another.
* `Awaits`: the levels still open, and how many of the trees written their operators and calls wait
  to take.
* `Steady`, `steady_of_move`, `steady_inside`: the invariant of the pass, and the steps that keep it.
* `Outcome`, `outcome_of_cuts`: the whole pass over the tokens of a text, and the faults that it
  cannot have.
* `tree_of_scan`: the tree of what is accepted of a text, and what is read back.
-/

namespace RadixCalc

/-! ## Trees one behind another -/

namespace Token

/-- An operator or the sign of a negation. -/
def isSign : Token → Bool
  | op _ | neg => true
  | _ => false

/-- The number of operators among tokens: each of them leaves one tree less. -/
def operators : List Token → Nat
  | [] => 0
  | op _ :: ts => operators ts + 1
  | _ :: ts => operators ts

theorem operators_append (ts us : List Token) :
    operators (ts ++ us) = operators ts + operators us := by
  induction ts with
  | nil => exact (Nat.zero_add _).symm
  | cons t ts ih =>
    cases t <;> simp only [List.cons_append, operators, ih]
    omega

end Token

open Token

/-- Every function has an argument. -/
theorem exists_arity_eq {f : String} (h : (arity? f).isSome = true) :
    ∃ n, arity? f = some (n + 1) := by
  obtain ⟨n, hn⟩ := Option.isSome_iff_exists.1 h
  rcases arity_cases hn with ⟨-, rfl⟩ | ⟨-, rfl⟩
  · exact ⟨1, hn⟩
  · exact ⟨0, hn⟩

namespace Expr

variable {m n : Nat} {ts w : List Token} {f : String}

/-- The postfix orders of `n` trees, one behind another. -/
def Trees (n : Nat) (ts : List Token) : Prop :=
  ∃ st : Stack, st.length = n ∧ spelled st = ts

theorem trees_nil : Trees 0 [] :=
  ⟨[], rfl, rfl⟩

theorem Trees.word (h : Trees n ts) (text : String) : Trees (n + 1) (ts ++ [.word text]) := by
  obtain ⟨st, rfl, rfl⟩ := h
  exact ⟨(.word text, 1) :: st, rfl, rfl⟩

theorem Trees.unary (h : Trees (n + 1) ts) {t : Token} {g : Expr → Expr}
    (hg : ∀ x, (g x).toPostfix = x.toPostfix ++ [t]) : Trees (n + 1) (ts ++ [t]) := by
  obtain ⟨st, hlen, rfl⟩ := h
  obtain ⟨⟨x, d⟩, st, rfl⟩ := List.exists_cons_of_length_eq_add_one hlen
  refine ⟨(g x, d + 1) :: st, hlen, ?_⟩
  simp only [spelled, hg, List.append_assoc]

theorem Trees.binary (h : Trees (n + 2) ts) {t : Token} {g : Expr → Expr → Expr}
    (hg : ∀ x y, (g x y).toPostfix = x.toPostfix ++ y.toPostfix ++ [t]) :
    Trees (n + 1) (ts ++ [t]) := by
  obtain ⟨st, hlen, rfl⟩ := h
  obtain ⟨⟨y, e⟩, st, rfl⟩ := List.exists_cons_of_length_eq_add_one hlen
  obtain ⟨⟨x, d⟩, st, rfl⟩ := List.exists_cons_of_length_eq_add_one (Nat.succ.inj hlen)
  refine ⟨(g x y, max d e + 1) :: st, Nat.succ.inj hlen, ?_⟩
  simp only [spelled, hg, List.append_assoc]

/-- A function takes as many trees as it has arguments. -/
theorem Trees.call (h : Trees (m + n) ts) (hf : arity? f = some n) :
    Trees (m + 1) (ts ++ [.call f]) := by
  rcases arity_cases hf with ⟨rfl, rfl⟩ | ⟨rfl, rfl⟩
  · exact h.binary (g := .root) fun _ _ => rfl
  · exact h.unary (g := .sqrt) fun _ => rfl

/-- **Waiting operators and signs** find their operands if there is a tree more than operators. -/
theorem Trees.flush (h : Trees (n + 1 + operators w) ts) (hw : ∀ t ∈ w, t.isSign = true) :
    Trees (n + 1) (ts ++ w) := by
  induction w generalizing ts with
  | nil => rwa [List.append_nil]
  | cons t w ih =>
    obtain ⟨ht, hw⟩ := List.forall_mem_cons.1 hw
    rw [← List.singleton_append, ← List.append_assoc]
    refine ih ?_ hw
    rw [Nat.add_right_comm] at h ⊢
    cases t with
    | op o => exact Trees.binary (g := .binary o) h fun _ _ => rfl
    | neg => exact Trees.unary (g := .neg) h fun _ => rfl
    | word | call | opening | closing | comma => cases ht

/-- One postfix order is that of one tree. -/
theorem Trees.exists_eq (h : Trees 1 ts) : ∃ e : Expr, ts = e.toPostfix := by
  obtain ⟨st, hlen, rfl⟩ := h
  obtain ⟨⟨e, d⟩, rfl⟩ := List.length_eq_one_iff.1 hlen
  exact ⟨e, List.nil_append _⟩

end Expr

namespace Postfix

open State RadixCalc.Expr

variable {s s' : State} {t : Token} {ts listing : List Token} {calls : List Bool}
  {level : Level} {levels : List Level} {fault : Fault} {k m n : Nat} {f : String}

/-! ## What waits on the levels -/

/-- The levels still open, innermost first, with the calls among them marked, and how many of the
trees written their operators and calls wait to take: one for each operator, which stands behind its
left operand, and one for each argument that has ended. -/
inductive Awaits : List Bool → List Level → Nat → Prop
  | ground {w : List Token} (hw : ∀ t ∈ w, t.isSign = true) :
      Awaits [] [⟨w, none⟩] (operators w)
  | group {calls : List Bool} {levels : List Level} {m : Nat} {w : List Token}
      (hw : ∀ t ∈ w, t.isSign = true) : Awaits calls levels m →
      Awaits (false :: calls) (⟨w, none⟩ :: levels) (m + operators w)
  | call {calls : List Bool} {levels : List Level} {m : Nat} {w : List Token} {f : String} {n : Nat}
      (hw : ∀ t ∈ w, t.isSign = true) (hf : (arity? f).isSome = true) : Awaits calls levels m →
      Awaits (true :: calls) (⟨w, some (f, n)⟩ :: levels) (m + n + operators w)

/-- What waits on the innermost level may be replaced. -/
theorem Awaits.exists_replace (h : Awaits calls (level :: levels) m) :
    (∀ t ∈ level.waiting, t.isSign = true) ∧ ∃ j, m = j + operators level.waiting ∧
      ∀ w, (∀ t ∈ w, t.isSign = true) →
        Awaits calls ({ level with waiting := w } :: levels) (j + operators w) := by
  cases h with
  | ground hv =>
    refine ⟨hv, 0, (Nat.zero_add _).symm, fun w hw => ?_⟩
    rw [Nat.zero_add]
    exact .ground hw
  | group hv h => exact ⟨hv, _, rfl, fun w hw => .group hw h⟩
  | call hv hf h => exact ⟨hv, _, rfl, fun w hw => .call hw hf h⟩

/-- The innermost level is that of a call. -/
theorem Awaits.of_call (h : Awaits calls (level :: levels) m) (hc : level.call = some (f, n)) :
    (∀ t ∈ level.waiting, t.isSign = true) ∧ (arity? f).isSome = true ∧
      ∃ calls' j, calls = true :: calls' ∧ m = j + n + operators level.waiting ∧
        Awaits calls' levels j := by
  cases h with
  | ground => cases hc
  | group => cases hc
  | call hw hf h =>
    cases hc
    exact ⟨hw, hf, _, _, rfl, rfl, h⟩

/-- The innermost level is that of a group. -/
theorem Awaits.of_group {level' : Level} (h : Awaits calls (level :: level' :: levels) m)
    (hc : level.call = none) : (∀ t ∈ level.waiting, t.isSign = true) ∧
      ∃ calls' j, calls = false :: calls' ∧ m = j + operators level.waiting ∧
        Awaits calls' (level' :: levels) j := by
  cases h with
  | group hw h => exact ⟨hw, _, _, rfl, rfl, h⟩
  | call => cases hc

/-- A level marked as that of a call is one. -/
theorem Awaits.call_ne_none (h : Awaits calls (level :: levels) m)
    (hc : calls.head? = some true) : level.call ≠ none := by
  cases h with
  | ground => cases hc
  | group => cases hc
  | call => exact nofun

/-- There is one level only. -/
theorem Awaits.of_singleton (h : Awaits calls [level] m) :
    (∀ t ∈ level.waiting, t.isSign = true) ∧ m = operators level.waiting := by
  cases h with
  | ground hw => exact ⟨hw, rfl⟩
  | group _ h => cases h
  | call _ _ h => cases h

/-- **The invariant of the pass**: the trees written are those that wait to be taken and, if a value
has just ended, that value. -/
def Steady (calls : List Bool) (s : State) : Prop :=
  ∃ m, Awaits calls (s.level :: s.outer) m ∧ Trees (m + s.valued.toNat) s.written.reverse

theorem steady_start : Steady [] start :=
  ⟨0, .ground (w := []) nofun, trees_nil⟩

/-- No function waits for its parenthesis. -/
theorem Steady.plain (h : Steady calls s) (f : String) : s.level.waiting.head? ≠ some (.call f) := by
  obtain ⟨m, ha, -⟩ := h
  intro hf
  have := ha.exists_replace.1 _ (List.mem_of_mem_head? hf)
  cases this

/-- All that waits on the innermost level finds its operands. -/
theorem trees_flushed (hw : ∀ t ∈ s.level.waiting, t.isSign = true)
    (h : Trees (n + 1 + operators s.level.waiting) s.written.reverse) :
    Trees (n + 1) s.flushed.reverse := by
  rw [reverse_flushed]
  exact h.flush hw

/-! ## Steps -/

/-- The calls among the levels behind a token that names no function. -/
def callsBehind (calls : List Bool) : Token → List Bool
  | .opening => false :: calls
  | .closing => calls.tail
  | _ => calls

theorem steady_combine (h : Steady calls s) (hv : s.valued = true) (o : Operator) :
    Steady calls (s.combine o) := by
  obtain ⟨m, ha, ht⟩ := h
  obtain ⟨hsigns, j, rfl, hreplace⟩ := ha.exists_replace
  have hsplit := List.takeWhile_append_dropWhile (p := precedes o) (l := s.level.waiting)
  set first := s.level.waiting.takeWhile (precedes o) with hfirst
  set rest := s.level.waiting.dropWhile (precedes o) with hrest
  rw [← hsplit] at hsigns ht
  rw [operators_append, hv] at ht
  obtain ⟨hsigns₁, hsigns₂⟩ := List.forall_mem_append.1 hsigns
  refine ⟨_, hreplace (.op o :: rest) (List.forall_mem_cons.2 ⟨rfl, hsigns₂⟩), ?_⟩
  have hcount : j + (operators first + operators rest) + true.toNat =
      j + operators rest + 1 + operators first := by
    rw [Bool.toNat_true]
    omega
  rw [hcount] at ht
  have := ht.flush hsigns₁
  unfold combine
  rwa [← hfirst, List.reverse_append, List.reverse_reverse]

/-- The parenthesis of a group or of a call has been opened, and nothing is read inside. -/
theorem steady_inside {mark : Bool} {call : Option (String × Nat)} (h : Steady calls s)
    (hv : s.valued = false) (hlevel : ∀ m, Awaits calls (s.level :: s.outer) m →
      Awaits (mark :: calls) (⟨[], call⟩ :: s.level :: s.outer) m) :
    Steady (mark :: calls) (s.inside [] call) := by
  obtain ⟨m, ha, ht⟩ := h
  rw [hv] at ht
  exact ⟨m, hlevel m ha, ht⟩

/-- **One step** over a token that names no function. -/
theorem steady_of_move (h : Steady calls s) (hm : Move s t s') (ht : ∀ f, t ≠ .call f) :
    Steady (callsBehind calls t) s' := by
  have hplain := h.plain
  cases hm with
  | call => exact absurd rfl (ht _)
  | combine hv => exact steady_combine h hv _
  | plus => exact h
  | opening hv =>
    rw [opened_eq hplain]
    exact steady_inside h hv fun m ha => .group (w := []) nofun ha
  | word hv =>
    obtain ⟨m, ha, hw⟩ := h
    rw [hv] at hw
    refine ⟨m, ha, ?_⟩
    rw [List.reverse_cons]
    exact hw.word _
  | minus hv =>
    obtain ⟨m, ha, hw⟩ := h
    obtain ⟨hsigns, j, rfl, hreplace⟩ := ha.exists_replace
    rw [hv] at hw
    exact ⟨_, hreplace (.neg :: s.level.waiting) (List.forall_mem_cons.2 ⟨rfl, hsigns⟩), hw⟩
  | comma hv hc =>
    obtain ⟨m, ha, hw⟩ := h
    obtain ⟨hsigns, hf, calls, j, rfl, rfl, houter⟩ := ha.of_call hc
    rw [hv, Bool.toNat_true, Nat.add_right_comm] at hw
    exact ⟨_, .call (w := []) nofun hf houter, trees_flushed hsigns hw⟩
  | closeGroup hv ho hc =>
    obtain ⟨m, ha, hw⟩ := h
    rw [ho] at ha
    obtain ⟨hsigns, calls, j, rfl, rfl, houter⟩ := ha.of_group hc
    rw [hv, Bool.toNat_true, Nat.add_right_comm] at hw
    exact ⟨j, houter, trees_flushed hsigns hw⟩
  | @closeCall level outer f n ho hc hn =>
    obtain ⟨m, ha, hw⟩ := h
    rw [ho] at ha
    obtain ⟨hsigns, hf, calls, j, rfl, rfl, houter⟩ := ha.of_call hc
    -- the arguments are as many as the function takes, with a value at the end or without
    obtain ⟨k, hk⟩ := exists_arity_eq hf
    have harguments : n + s.valued.toNat = k + 1 := by
      rw [hk, Option.getD_some] at hn
      cases hv : s.valued <;> simpa [hv] using hn
    have hcount : j + n + operators s.level.waiting + s.valued.toNat =
        j + k + 1 + operators s.level.waiting := by
      omega
    rw [hcount] at hw
    refine ⟨j, houter, ?_⟩
    rw [List.reverse_cons]
    exact Trees.call (m := j) (trees_flushed (n := j + k) hsigns hw) hk

/-- The name of a function and its parenthesis. -/
theorem steady_of_call (h : Steady calls s) (hv : s.valued = false)
    (hf : (arity? f).isSome = true) : Steady (true :: calls) (s.inside [] (some (f, 0))) :=
  steady_inside h hv fun _ ha => .call (w := []) nofun hf ha

/-! ## The tokens of a text -/

/-- What a pass over the tokens of a text comes to: a steady state, or a fault that is neither a comma
outside of all calls nor the sign of a negation. -/
def Outcome (r : Except Fault State) : Prop :=
  match r with
  | .ok s => ∃ calls, Steady calls s
  | .error f => f ≠ .malformed .strayComma ∧ f ≠ .malformed .signOutOfPlace

theorem outcome_cons (h : Steady calls s) (ht : ∀ f, t ≠ .call f) (hneg : t ≠ .neg)
    (hcomma : t = .comma → calls.head? = some true)
    (hrest : ∀ {s'}, Steady (callsBehind calls t) s' → Outcome (ts.foldlM step s')) :
    Outcome ((t :: ts).foldlM step s) := by
  rw [List.foldlM_cons]
  cases hstep : step s t with
  | ok s' => exact hrest (steady_of_move h (move_of_step hstep) ht)
  | error f =>
    cases stop_of_step hstep with
    | strayComma _ hc =>
      obtain ⟨m, ha, -⟩ := h
      exact absurd hc (ha.call_ne_none (hcomma rfl))
    | neg => exact absurd rfl hneg
    | _ => exact ⟨nofun, nofun⟩

/-- **The pass over the tokens of a text.** -/
theorem outcome_of_cuts {text : List Char} (hcut : Cuts calls text ts) (h : Steady calls s) :
    Outcome (ts.foldlM step s) := by
  induction hcut generalizing s with
  | nil => exact ⟨_, h⟩
  | blank _ _ ih => exact ih h
  | opening _ ih => exact outcome_cons h (by simp) (by simp) (by simp) ih
  | closing _ ih => exact outcome_cons h (by simp) (by simp) (by simp) ih
  | comma hc _ ih => exact outcome_cons h (by simp) (by simp) (fun _ => hc) ih
  | op o _ ih => exact outcome_cons h (by simp) (by simp) (by simp) ih
  | word _ _ _ ih => exact outcome_cons h (by simp) (by simp) (by simp) ih
  | @call calls w b rest f ts _ _ hf _ _ ih =>
    rw [List.foldlM_cons, step]
    by_cases hv : s.valued = true
    · rw [if_pos hv]
      exact ⟨by simp, by simp⟩
    · rw [if_neg hv, ok_bind, List.foldlM_cons]
      exact ih (steady_of_call h (by simpa using hv) hf)

theorem steady_of_closings (h : Steady calls s)
    (hrun : (List.replicate k Token.closing).foldlM step s = .ok s') :
    ∃ calls, Steady calls s' := by
  induction k generalizing calls s with
  | zero =>
    cases hrun
    exact ⟨_, h⟩
  | succ k ih =>
    rw [List.replicate_succ, List.foldlM_cons] at hrun
    obtain ⟨s₁, h₁, h₂⟩ := bind_eq_ok_iff.1 hrun
    exact ih (steady_of_move h (move_of_step h₁) nofun) h₂

/-- Behind a value outside of all parentheses one tree has been written and waits to be. -/
theorem Steady.exists_tree (h : Steady calls s) (hv : s.valued = true) (ho : s.outer = []) :
    ∃ e : Expr, s.flushed.reverse = e.toPostfix := by
  obtain ⟨m, ha, hw⟩ := h
  rw [ho] at ha
  obtain ⟨hsigns, rfl⟩ := ha.of_singleton
  rw [hv, Bool.toNat_true, Nat.add_comm, ← Nat.zero_add 1] at hw
  exact (trees_flushed hsigns hw).exists_eq

theorem exists_tree_of_scan {text : String} (hs : Token.scan text = .ok ts) (hne : ts ≠ [])
    (h : toPostfix ts = (k, .ok listing)) : ∃ e : Expr, listing = e.toPostfix := by
  obtain ⟨s, s', hp⟩ := exists_passed h
  have hrun := outcome_of_cuts (scan_eq_ok_iff.1 hs) steady_start
  rw [hp.run] at hrun
  obtain ⟨calls, hsteady⟩ := hrun
  obtain ⟨calls', hsteady'⟩ := steady_of_closings hsteady hp.supplied
  rw [hp.written]
  exact hsteady'.exists_tree (hp.ends hne) hp.closed

/-- **What is accepted of a text is the postfix order of one tree**, with the closing parentheses
that are supplied, and is read back as this tree unless it is too deep. What is refused of a text is
refused neither for a comma outside of all calls nor for the sign of a negation. -/
theorem tree_of_scan {text : String} (hs : Token.scan text = .ok ts) (hne : ts ≠ []) :
    (∀ k listing, toPostfix ts = (k, .ok listing) → ∃ e : Expr, listing = e.toPostfix ∧
      (∀ e' : Expr, listing = e'.toPostfix → e' = e) ∧
      Expr.ofPostfix listing =
        if e.depth ≤ Expr.maxDepth then .ok e else .error (.malformed .tooDeep)) ∧
    ∀ k fault, toPostfix ts = (k, .error fault) →
      fault ≠ .malformed .strayComma ∧ fault ≠ .malformed .signOutOfPlace := by
  refine ⟨fun k listing h => ?_, fun k fault h => ?_⟩
  · obtain ⟨e, rfl⟩ := exists_tree_of_scan hs hne h
    exact ⟨e, rfl, fun e' he => toPostfix_injective he.symm, ofPostfix_toPostfix e⟩
  · rcases toPostfix_error_cases h with hrun | rfl | ⟨s, hstop⟩
    · have hout := outcome_of_cuts (scan_eq_ok_iff.1 hs) steady_start
      rwa [hrun] at hout
    · exact ⟨nofun, nofun⟩
    · cases hstop <;> exact ⟨nofun, nofun⟩

/-- A call closed behind an operator, in a group left open: the sum takes both arguments of the call,
and the parenthesis supplied closes the group. -/
theorem tree_of_closed_operator :
    Token.scan "(-sqrt(2,3+)" = .ok [.opening, .op .sub, .call "sqrt", .opening, .word "2", .comma,
        .word "3", .op .add, .closing] ∧
      toPostfix [.opening, .op .sub, .call "sqrt", .opening, .word "2", .comma, .word "3", .op .add,
        .closing] = (1, .ok [.word "2", .word "3", .op .add, .call "sqrt", .neg]) ∧
      Expr.ofPostfix [.word "2", .word "3", .op .add, .call "sqrt", .neg] =
        .ok (.neg (.sqrt (.binary .add (.word "2") (.word "3")))) := by
  have hs : Token.scan "(-sqrt(2,3+)" = .ok [.opening, .op .sub, .call "sqrt", .opening, .word "2",
      .comma, .word "3", .op .add, .closing] := by decide +kernel
  have h : toPostfix [.opening, .op .sub, .call "sqrt", .opening, .word "2", .comma, .word "3",
      .op .add, .closing] = (1, .ok [.word "2", .word "3", .op .add, .call "sqrt", .neg]) := by
    decide +kernel
  obtain ⟨e, hlisting, hunique, hread⟩ := (tree_of_scan hs nofun).1 1 _ h
  have he := hunique (.neg (.sqrt (.binary .add (.word "2") (.word "3")))) rfl
  refine ⟨hs, h, ?_⟩
  rw [hread, ← he]
  rfl

end Postfix

end RadixCalc
