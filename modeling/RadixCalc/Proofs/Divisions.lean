import RadixCalc.Proofs.Bracket

/-!
# What Brent's method divides by, and where it looks

Division is total here, and so is every function. To say that nothing is divided by zero, and that
a function is looked at between the two ends only, the search is repeated with quotients that have
no value when the divisor is zero, for functions that have a value at some points only.

* `quotient?`: a quotient by a number that is not zero.
* `Brent.rounds?`, `brent?`: the search with such quotients.
* `Brent.State.stride?_eq`, `Brent.State.next?_eq`, `Brent.rounds?_eq`: it is the search itself.
* `brent_keeps_bracket`: what is known of the solution of any function.
-/

namespace RadixCalc

/-- The quotient of `x` by `y`, which has no value for `y = 0`. -/
def quotient? (x y : ℚ) : Option ℚ :=
  if y = 0 then none else some (x / y)

theorem quotient?_eq {x y : ℚ} (hy : y ≠ 0) : quotient? x y = some (x / y) := if_neg hy

/-- The multiple of `step` nearest to `x`. -/
def roundTo? (step x : ℚ) : Option ℚ :=
  (quotient? x step).map fun y => nearestInt y * step

namespace Brent

namespace State

/-! ## Rounds with their divisions checked -/

/-- The step that interpolation proposes. -/
def interpolated? (s : State) : Option (ℚ × ℚ) := do
  let m := s.half
  let u ← quotient? s.fb s.fa
  let (p, q) ←
    if s.a = s.c then pure (2 * m * u, 1 - u)
    else do
      let v ← quotient? s.fa s.fc
      let w ← quotient? s.fb s.fc
      pure (u * (2 * m * v * (v - w) - (s.b - s.a) * (w - 1)), (v - 1) * (w - 1) * (u - 1))
  return if 0 < p then (p, -q) else (-p, q)

/-- The step to take, and the one to keep as the step before it. -/
def stride? (s : State) (t : ℚ) : Option (ℚ × ℚ) :=
  if s.e.abs < s.margin t || s.fa.abs ≤ s.fb.abs then pure (s.half, s.half)
  else do
    let (p, q) ← s.interpolated?
    if s.accepts t p q then return (← quotient? p q, s.d) else return (s.half, s.half)

/-- The next point. -/
def next? (s : State) (t : ℚ) : Option ℚ := do
  let (d, _) ← s.stride? t
  let step := if s.margin t < d.abs then d else if 0 < s.half then s.margin t else -s.margin t
  roundTo? (gridStep t) (s.b + step)

end State

/-- The rounds, for a function that need not have a value at every point. The state behind a round
needs the step of `State.next?` again, and no other quotient. -/
def rounds? (f : ℚ → Option ℚ) (t : ℚ) : (rest : ℕ) → State → Option Solution
  | 0, s => do
    let s := s.ordered
    if s.settled t then return ⟨s.b, maxRounds, s.half.abs⟩
    else return ⟨← s.next? t, maxRounds, s.half.abs⟩
  | rest + 1, s => do
    let s := s.ordered
    if s.settled t then return ⟨s.b, maxRounds - (rest + 1), s.half.abs⟩
    else
      let b ← s.next? t
      let fb ← f b
      rounds? f t rest (s.moved t b fb)

end Brent

/-- The solution between two points, for a function that need not have a value at every point. -/
def brent? (f : ℚ → Option ℚ) (a b : ℚ) (goal : Goal) : Option (Except Fault Solution) :=
  match goal.checkTolerance with
  | .error e => some (.error e)
  | .ok () => do
    let g x := (f x).map (· - goal.target)
    let fa ← g a
    let fb ← g b
    match goal.checkBracket fa fb with
    | .error e => return .error e
    | .ok () =>
      let s ← Brent.rounds? g goal.tolerance (maxRounds - 1) ⟨a, b, a, fa, fb, fa, b - a, b - a⟩
      return .ok s

/-! ## The checks all pass -/

namespace Brent

variable {f : ℚ → Option ℚ} {g : ℚ → ℚ} {a b t : ℚ} {s : State}

namespace State

/-- Two values that are not zero are all that interpolation divides by. -/
theorem interpolated?_eq (ha : s.fa ≠ 0) (hc : s.fc ≠ 0) : s.interpolated? = some s.interpolated := by
  unfold interpolated? interpolated
  rw [quotient?_eq ha, quotient?_eq hc, quotient?_eq hc]
  by_cases hline : s.a = s.c
  · simp only [if_pos hline, Option.bind_eq_bind, Option.bind_some, Option.pure_def]
  · simp only [if_neg hline, Option.bind_eq_bind, Option.bind_some, Option.pure_def]

/-- **A step divides by nothing that is zero**, once the end across is no zero: interpolation is
tried only where the point before is further from the target than the last one, and what it
proposes is accepted only if it has a divisor. -/
theorem stride?_eq (hc : s.fc ≠ 0) (t : ℚ) : s.stride? t = some (s.stride t) := by
  unfold stride? stride
  split
  · rfl
  · rename_i htried
    have hcloser : |s.fb| < |s.fa| := by
      rw [Bool.or_eq_true, not_or, decide_eq_true_eq, decide_eq_true_eq, rat_abs_eq, rat_abs_eq,
        rat_abs_eq, not_le] at htried
      exact htried.2
    have ha : s.fa ≠ 0 := abs_pos.1 ((abs_nonneg _).trans_lt hcloser)
    rw [interpolated?_eq ha hc]
    simp only [Option.bind_eq_bind, Option.bind_some, Option.pure_def]
    split
    · rename_i haccepts
      have hq := (accepts_bounds s.interpolated_fst_nonneg haccepts).1
      rw [quotient?_eq hq, Option.bind_some]
    · rfl

theorem next?_eq (ht : 0 < t) (hc : s.fc ≠ 0) : s.next? t = some (s.next t) := by
  have hgrid := (gridStep_pos ht).ne'
  unfold next? next roundTo? roundTo
  rw [stride?_eq hc]
  simp only [Option.bind_eq_bind, Option.bind_some, quotient?_eq hgrid, Option.map_some]

end State

/-- **The rounds divide by nothing that is zero, and look nowhere but between the ends**, by
induction on their number: a round keeps the bracket, and ends within it. -/
theorem rounds?_eq (ht : 0 < t) (hf : ∀ x ∈ Set.uIcc a b, f x = some (g x)) (rest : ℕ) :
    ∀ s : State, s.Brackets g a b → rounds? f t rest s = some (rounds g t rest s) := by
  induction rest with
  | zero =>
    intro s h
    rw [rounds?, rounds]
    split
    · rfl
    · rw [State.next?_eq ht h.ordered.fc_ne_zero]
      rfl
  | succ rest ih =>
    intro s h
    rw [rounds?, rounds]
    dsimp only
    split
    · rfl
    · rename_i hopen
      rw [Bool.not_eq_true] at hopen
      obtain ⟨hwide, hb⟩ := State.settled_eq_false_iff.1 hopen
      have hmem := State.next_mem ht hwide
      have hinside := Set.uIcc_subset_uIcc h.ordered.b_mem h.ordered.c_mem hmem
      rw [State.next?_eq ht h.ordered.fc_ne_zero]
      simp only [Option.bind_eq_bind, Option.bind_some]
      rw [hf _ hinside, Option.bind_some]
      exact ih _ (h.ordered.moved hb hmem)

end Brent

variable {f : ℚ → ℚ} {a b : ℚ} {goal : Goal}

theorem brent?_eq {f' : ℚ → Option ℚ} (ht : 0 < goal.tolerance)
    (h : goal.gap f a * goal.gap f b < 0) (hf : ∀ x ∈ Set.uIcc a b, f' x = some (f x)) :
    brent? f' a b goal = some (brent f a b goal) := by
  have htolerance := Goal.checkTolerance_of_pos ht
  have hbracket := goal.checkBracket_of_mul_neg h
  have hgap : ∀ x ∈ Set.uIcc a b, (f' x).map (· - goal.target) = some (goal.gap f x) := by
    intro x hx
    rw [hf x hx]
    rfl
  have hrounds := Brent.rounds?_eq ht hgap (maxRounds - 1) _ (Brent.State.brackets_ofEnds h)
  unfold Brent.State.ofEnds at hrounds
  rw [brent_eq_rounds ht h]
  unfold brent?
  simp only [htolerance, hgap a Set.left_mem_uIcc, hgap b Set.right_mem_uIcc, hbracket,
    Option.bind_eq_bind, Option.bind_some, hrounds]
  rfl

/-- **A search keeps its bracket, divides by nothing that is zero, and looks only between its two
ends**, whatever the function. It ends with a solution, in fifty rounds at most. The value solves
the equation, or it lies between two points as far apart as twice the error, where the function is
on opposite sides of the target; if rounds are left, the error is within the tolerance at the
value. -/
theorem brent_keeps_bracket (f : ℚ → ℚ) (a b : ℚ) (goal : Goal) (ht : 0 < goal.tolerance)
    (h : goal.gap f a * goal.gap f b < 0) :
    ∃ r, brent f a b goal = .ok r ∧
      (∀ f' : ℚ → Option ℚ, (∀ x ∈ Set.uIcc a b, f' x = some (f x)) →
        brent? f' a b goal = some (.ok r)) ∧
      1 ≤ r.rounds ∧ r.rounds ≤ maxRounds ∧
      (goal.gap f r.value = 0 ∨ ∃ u ∈ Set.uIcc a b, ∃ v ∈ Set.uIcc a b,
        goal.gap f u * goal.gap f v < 0 ∧ |u - v| = 2 * r.error ∧ r.value ∈ Set.uIcc u v) ∧
      (r.rounds < maxRounds → goal.gap f r.value ≠ 0 →
        r.error ≤ 2 * goal.tolerance * |r.value| + goal.tolerance) := by
  set g := goal.gap f with hg
  set s := Brent.State.ofEnds g a b with hs
  have hbrent := brent_eq_rounds ht h
  obtain ⟨hreturns, hrounds⟩ := Brent.returns_rounds g goal.tolerance (maxRounds - 1) s
  have hbracket := Brent.brackets_last ht (maxRounds - 1) (Brent.State.brackets_ofEnds h)
  set e := Brent.last g goal.tolerance (maxRounds - 1) s with he
  have hwidth : |e.b - e.c| = 2 * |e.half| := by
    unfold Brent.State.half
    rw [abs_div, abs_sub_comm, abs_of_pos (by norm_num : (0 : ℚ) < 2)]
    ring
  refine ⟨_, hbrent, fun f' hf => ?_, hrounds, hreturns.rounds_le, ?_, ?_⟩
  · rw [brent?_eq ht h hf, hbrent]
  · by_cases hzero : e.fb = 0
    · -- the last point solves the equation
      have hsettled := Brent.State.settled_eq_true_iff (t := goal.tolerance).2 (.inr hzero)
      rw [hreturns.value, if_pos hsettled, ← hbracket.value_b]
      exact .inl hzero
    · refine .inr ⟨e.b, hbracket.b_mem, e.c, hbracket.c_mem, ?_, by rw [hreturns.error, hwidth], ?_⟩
      · rw [← hbracket.value_b, ← hbracket.value_c]
        exact lt_of_le_of_ne hbracket.apart (mul_ne_zero hzero hbracket.fc_ne_zero)
      · rw [hreturns.value]
        split
        · exact Set.left_mem_uIcc
        · rename_i hopen
          rw [Bool.not_eq_true] at hopen
          exact Brent.State.next_mem ht (Brent.State.settled_eq_false_iff.1 hopen).1
  · intro hearly hne
    have hsettled := hreturns.settled hearly
    rw [hreturns.value, if_pos hsettled] at hne ⊢
    rw [← hbracket.value_b] at hne
    rw [hreturns.error, ← Brent.State.margin_eq]
    exact (Brent.State.settled_eq_true_iff.1 hsettled).resolve_right hne

/-- The square root of two between one and two, to a hundredth, of a square that has a value there
only. -/
theorem brent_square_keeps_bracket :
    brent (fun x => x ^ 2) 1 2 ⟨1 / 100, 2⟩ = .ok ⟨227 / 160, 4, 61 / 3200⟩ ∧
    brent? (fun x => if 1 ≤ x ∧ x ≤ 2 then some (x ^ 2) else none) 1 2 ⟨1 / 100, 2⟩ =
      some (.ok ⟨227 / 160, 4, 61 / 3200⟩) ∧
    (∃ u ∈ Set.uIcc 1 2, ∃ v ∈ Set.uIcc 1 2,
      Goal.gap ⟨1 / 100, 2⟩ (fun x => x ^ 2) u * Goal.gap ⟨1 / 100, 2⟩ (fun x => x ^ 2) v < 0 ∧
      |u - v| = 2 * (61 / 3200) ∧ 227 / 160 ∈ Set.uIcc u v) ∧
    (61 / 3200 : ℚ) ≤ 2 * (1 / 100) * |227 / 160| + 1 / 100 := by
  have hrun : brent (fun x => x ^ 2) 1 2 ⟨1 / 100, 2⟩ = .ok ⟨227 / 160, 4, 61 / 3200⟩ := by
    decide +kernel
  have hne : Goal.gap ⟨1 / 100, 2⟩ (fun x => x ^ 2) (227 / 160) ≠ 0 := by norm_num [Goal.gap]
  obtain ⟨r, hr, hpartial, -, -, hbracket, hnear⟩ :=
    brent_keeps_bracket (fun x => x ^ 2) 1 2 ⟨1 / 100, 2⟩ (by norm_num) (by norm_num [Goal.gap])
  rw [hrun] at hr
  obtain rfl := Except.ok.inj hr
  refine ⟨hrun, hpartial _ ?_, hbracket.resolve_left hne, hnear (by decide) hne⟩
  intro x hx
  rw [Set.uIcc_of_le (by norm_num)] at hx
  exact if_pos hx

end RadixCalc
