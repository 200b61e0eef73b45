import Mathlib.Algebra.Order.Ring.Abs
import Mathlib.Order.Interval.Set.UnorderedInterval
import RadixCalc.Proofs.Rounding
import RadixCalc.Solve.Brent

/-!
# The bracket of Brent's method

From round to round the points `b` and `c` lie between the ends of the search, with `g` on either
side of zero there, whatever `g` is.

* `opposite_iff`: opposite sides of zero, as a product.
* `Brent.State.Brackets`: what every round keeps.
* `Brent.State.stride_bounds`, `Brent.State.next_mem`: a round goes towards `c` and not past it.
* `Brent.last`, `Brent.last_invariant`: the state in which the rounds end, and what holds there.
* `Brent.returns_rounds`: what the rounds return of it.
-/

namespace RadixCalc

theorem opposite_iff {x y : ℚ} : opposite x y = true ↔ x * y < 0 := by
  unfold opposite
  rw [mul_neg_iff]
  simp only [Bool.or_eq_true, Bool.and_eq_true, decide_eq_true_eq]
  exact or_comm

namespace Goal

theorem checkTolerance_of_pos {goal : Goal} (h : 0 < goal.tolerance) :
    goal.checkTolerance = .ok () :=
  if_pos h

theorem checkBracket_of_mul_neg (goal : Goal) {x y : ℚ} (h : x * y < 0) :
    goal.checkBracket x y = .ok () :=
  if_pos (opposite_iff.2 h)

end Goal

/-- Numbers of which only one is positive do not lie on the same side of zero. -/
theorem mul_nonpos_of_not_iff {x y : ℚ} (hy : y ≠ 0) (h : ¬(0 < x ↔ 0 < y)) : x * y ≤ 0 := by
  rcases lt_or_gt_of_ne hy with hneg | hpos
  · have hx : 0 < x := by
      by_contra hx
      exact h ⟨fun hx' => absurd hx' hx, fun hpos => absurd hpos hneg.not_gt⟩
    exact mul_nonpos_of_nonneg_of_nonpos hx.le hneg.le
  · have hx : x ≤ 0 := not_lt.1 fun hx => h ⟨fun _ => hpos, fun _ => hx⟩
    exact mul_nonpos_of_nonpos_of_nonneg hx hpos.le

/-- What is across from a number is across from another one on its side. -/
theorem mul_nonpos_of_iff {x y z : ℚ} (hy : y ≠ 0) (h : 0 < x ↔ 0 < y) (hz : z * y ≤ 0) :
    x * z ≤ 0 := by
  rcases lt_or_gt_of_ne hy with hneg | hpos
  · have hx : x ≤ 0 := not_lt.1 fun hx => absurd (h.1 hx) hneg.not_gt
    exact mul_nonpos_of_nonpos_of_nonneg hx (nonneg_of_mul_nonpos_left hz hneg)
  · exact mul_nonpos_of_nonneg_of_nonpos (h.2 hpos).le (nonpos_of_mul_nonpos_left hz hpos)

namespace Brent

variable {g : ℚ → ℚ} {a b t x : ℚ} {s : State}

namespace State

/-! ## Which end is the last point -/

/-- **The bracket of a search between `a` and `b`**: two points between them, at which `g` is not
on the same side of zero, and is not zero at the second. -/
structure Brackets (g : ℚ → ℚ) (a b : ℚ) (s : State) : Prop where
  value_b : s.fb = g s.b
  value_c : s.fc = g s.c
  b_mem : s.b ∈ Set.uIcc a b
  c_mem : s.c ∈ Set.uIcc a b
  apart : s.fb * s.fc ≤ 0
  fc_ne_zero : s.fc ≠ 0

/-- The state as it is, or with the ends of the bracket exchanged. -/
theorem ordered_cases (s : State) :
    |s.fc| < |s.fb| ∧
      s.ordered = { s with a := s.b, b := s.c, c := s.b, fa := s.fb, fb := s.fc, fc := s.fb } ∨
    |s.fb| ≤ |s.fc| ∧ s.ordered = s := by
  unfold ordered
  rw [rat_abs_eq, rat_abs_eq]
  split
  · rename_i h
    exact .inl ⟨h, rfl⟩
  · rename_i h
    exact .inr ⟨not_lt.1 h, rfl⟩

/-- The last point is the better one of the two. -/
theorem abs_ordered_le (s : State) : |s.ordered.fb| ≤ |s.ordered.fc| := by
  rcases s.ordered_cases with ⟨h, heq⟩ | ⟨h, heq⟩
  · rw [heq]
    exact h.le
  · rw [heq]
    exact h

theorem Brackets.ordered (h : s.Brackets g a b) : s.ordered.Brackets g a b := by
  rcases s.ordered_cases with ⟨hlt, heq⟩ | ⟨-, heq⟩
  · rw [heq]
    have hb : s.fb ≠ 0 := abs_pos.1 ((abs_nonneg s.fc).trans_lt hlt)
    exact ⟨h.value_c, h.value_b, h.c_mem, h.b_mem, by rw [mul_comm]; exact h.apart, hb⟩
  · rw [heq]
    exact h

/-! ## The step of a round -/

theorem margin_eq (s : State) (t : ℚ) : s.margin t = 2 * t * |s.b| + t := by
  unfold margin
  rw [rat_abs_eq]

theorem le_margin (ht : 0 < t) (s : State) : t ≤ s.margin t := by
  rw [margin_eq]
  have : 0 ≤ 2 * t * |s.b| := by positivity
  linarith

theorem settled_eq_true_iff : s.settled t = true ↔ |s.half| ≤ s.margin t ∨ s.fb = 0 := by
  unfold settled
  rw [rat_abs_eq]
  simp only [Bool.or_eq_true, decide_eq_true_eq, beq_iff_eq]

theorem settled_eq_false_iff : s.settled t = false ↔ s.margin t < |s.half| ∧ s.fb ≠ 0 := by
  rw [← Bool.not_eq_true, settled_eq_true_iff, not_or, not_le]

theorem interpolated_fst_nonneg (s : State) : 0 ≤ s.interpolated.1 := by
  unfold interpolated
  dsimp only
  -- whichever quotient is proposed, its sign is moved to the divisor
  generalize ite (s.a = s.c) _ _ = step
  split
  · rename_i h
    exact h.le
  · rename_i h
    exact neg_nonneg.2 (not_lt.1 h)

/-- An accepted quotient has a divisor, and goes towards `c`, by three quarters of the bracket at
most. -/
theorem accepts_bounds {p q : ℚ} (hp : 0 ≤ p) (h : s.accepts t p q = true) :
    q ≠ 0 ∧ 0 ≤ p / q * s.half ∧ |p / q| ≤ 3 / 2 * |s.half| := by
  unfold accepts at h
  rw [rat_abs_eq, rat_abs_eq, Bool.and_eq_true, decide_eq_true_eq] at h
  have hway : 2 * p < 3 * (s.half * q) := by
    have := abs_nonneg (s.margin t * q)
    linarith [h.1]
  have hpos : 0 < s.half * q := by linarith
  have hq : q ≠ 0 := right_ne_zero_of_mul hpos.ne'
  refine ⟨hq, ?_, ?_⟩
  · have heq : p / q * s.half = p * (s.half * q) / q ^ 2 := by
      field_simp
    rw [heq]
    positivity
  · rw [abs_div, abs_of_nonneg hp, div_le_iff₀ (abs_pos.2 hq)]
    rw [← abs_of_pos hpos, abs_mul] at hway
    linarith

/-- **The step of a round** goes towards `c`, by three quarters of the bracket at most. -/
theorem stride_bounds (s : State) (t : ℚ) :
    0 ≤ (s.stride t).1 * s.half ∧ |(s.stride t).1| ≤ 3 / 2 * |s.half| := by
  have hhalf : 0 ≤ s.half * s.half ∧ |s.half| ≤ 3 / 2 * |s.half| := by
    have := abs_nonneg s.half
    exact ⟨mul_self_nonneg _, by linarith⟩
  unfold stride
  split
  · exact hhalf
  · dsimp only
    split
    · rename_i haccepts
      exact (accepts_bounds s.interpolated_fst_nonneg haccepts).2
    · exact hhalf

/-- The step of a round, made as long as the margin at least. -/
def step (s : State) (t : ℚ) : ℚ :=
  if s.margin t < |(s.stride t).1| then (s.stride t).1
  else if 0 < s.half then s.margin t else -s.margin t

theorem next_eq (s : State) (t : ℚ) : s.next t = roundTo (gridStep t) (s.b + s.step t) := by
  unfold next step
  dsimp only
  rw [rat_abs_eq]

theorem step_bounds (ht : 0 < t) (hwide : s.margin t < |s.half|) :
    0 ≤ s.step t * s.half ∧ s.margin t ≤ |s.step t| ∧ |s.step t| ≤ 3 / 2 * |s.half| := by
  have hmargin : 0 < s.margin t := ht.trans_le (s.le_margin ht)
  obtain ⟨hdir, hlen⟩ := s.stride_bounds t
  unfold step
  split
  · rename_i hlong
    exact ⟨hdir, hlong.le, hlen⟩
  split
  · rename_i hright
    rw [abs_of_pos hmargin]
    exact ⟨by positivity, le_rfl, by linarith⟩
  · rename_i hleft
    rw [abs_neg, abs_of_pos hmargin]
    exact ⟨by nlinarith [not_lt.1 hleft], le_rfl, by linarith⟩

/-- **A round ends within the bracket**: the step is longer than half a grid step, and shorter than
the bracket by more than that. -/
theorem next_mem (ht : 0 < t) (hwide : s.margin t < |s.half|) :
    s.next t ∈ Set.uIcc s.b s.c := by
  have hmargin := s.le_margin ht
  obtain ⟨hdir, hlow, hhigh⟩ := step_bounds ht hwide
  -- the grid has sixteen points to a tolerance
  have hround : |s.next t - (s.b + s.step t)| ≤ t / 32 := by
    have := abs_roundTo_sub_le (gridStep_pos ht) (s.b + s.step t)
    rw [next_eq]
    rw [gridStep_eq] at this ⊢
    linarith
  obtain ⟨hdown, hup⟩ := abs_le.1 hround
  have hc : s.c = s.b + 2 * s.half := by
    unfold half
    ring
  -- towards `c`, a step of one margin clears the rounding, and three quarters leave room for it
  rcases lt_trichotomy s.half 0 with hneg | hzero | hpos
  · have hstep : s.step t ≤ 0 := by
      by_contra hstep
      exact absurd hdir (not_le.2 (mul_neg_of_pos_of_neg (not_le.1 hstep) hneg))
    rw [abs_of_neg hneg] at hwide hhigh
    rw [abs_of_nonpos hstep] at hlow hhigh
    exact Set.mem_uIcc_of_ge (by linarith) (by linarith)
  · rw [hzero, abs_zero] at hwide
    linarith
  · have hstep : 0 ≤ s.step t := nonneg_of_mul_nonneg_left hdir hpos
    rw [abs_of_pos hpos] at hwide hhigh
    rw [abs_of_nonneg hstep] at hlow hhigh
    exact Set.mem_uIcc_of_le (by linarith) (by linarith)

/-! ## The bracket behind a round -/

/-- Behind a round that ends at `x`, the end across is the old one, or the point before if `g` has
changed sides. -/
theorem moved_cases (s : State) (t x fx : ℚ) :
    (s.moved t x fx).b = x ∧ (s.moved t x fx).fb = fx ∧
      ((0 < fx ↔ 0 < s.fc) ∧ (s.moved t x fx).c = s.b ∧ (s.moved t x fx).fc = s.fb ∨
       ¬(0 < fx ↔ 0 < s.fc) ∧ (s.moved t x fx).c = s.c ∧ (s.moved t x fx).fc = s.fc) := by
  unfold moved
  dsimp only
  split
  · rename_i h
    exact ⟨rfl, rfl, .inl ⟨iff_of_eq h, rfl, rfl⟩⟩
  · rename_i h
    exact ⟨rfl, rfl, .inr ⟨fun hiff => h (propext hiff), rfl, rfl⟩⟩

/-- **A round keeps the bracket.** -/
theorem Brackets.moved (h : s.Brackets g a b) (hb : s.fb ≠ 0) (hx : x ∈ Set.uIcc s.b s.c) :
    (s.moved t x (g x)).Brackets g a b := by
  have hmem : x ∈ Set.uIcc a b := Set.uIcc_subset_uIcc h.b_mem h.c_mem hx
  obtain ⟨hxb, hfx, ⟨hsame, hc, hfc⟩ | ⟨hacross, hc, hfc⟩⟩ := s.moved_cases t x (g x)
  · -- the point before is across from `c`, and so from `x`
    constructor
    · rw [hfx, hxb]
    · rw [hfc, hc, h.value_b]
    · rwa [hxb]
    · rw [hc]
      exact h.b_mem
    · rw [hfx, hfc]
      exact mul_nonpos_of_iff h.fc_ne_zero hsame h.apart
    · rwa [hfc]
  · constructor
    · rw [hfx, hxb]
    · rw [hfc, hc, h.value_c]
    · rwa [hxb]
    · rw [hc]
      exact h.c_mem
    · rw [hfx, hfc]
      exact mul_nonpos_of_not_iff h.fc_ne_zero hacross
    · rw [hfc]
      exact h.fc_ne_zero

/-- The state before the first round. -/
def ofEnds (g : ℚ → ℚ) (a b : ℚ) : State := ⟨a, b, a, g a, g b, g a, b - a, b - a⟩

theorem brackets_ofEnds (h : g a * g b < 0) : (ofEnds g a b).Brackets g a b where
  value_b := rfl
  value_c := rfl
  b_mem := Set.right_mem_uIcc
  c_mem := Set.left_mem_uIcc
  apart := by
    rw [mul_comm] at h
    exact h.le
  fc_ne_zero := left_ne_zero_of_mul h.ne

end State

/-! ## All rounds -/

/-- The state in which the rounds end, with the better end of the bracket as its last point. -/
def last (g : ℚ → ℚ) (t : ℚ) : (rest : ℕ) → State → State
  | 0, s => s.ordered
  | rest + 1, s =>
    if s.ordered.settled t then s.ordered
    else last g t rest (s.ordered.moved t (s.ordered.next t) (g (s.ordered.next t)))

/-- **What every round keeps holds in the last state.** A round begins with the better end of the
bracket as the last point, and goes on only if nothing is settled. -/
theorem last_invariant {P : State → Prop} (ordered : ∀ s, P s → P s.ordered)
    (moved : ∀ s, P s → |s.fb| ≤ |s.fc| → s.settled t = false →
      P (s.moved t (s.next t) (g (s.next t)))) (rest : ℕ) :
    ∀ s, P s → P (last g t rest s) := by
  induction rest with
  | zero =>
    intro s h
    exact ordered s h
  | succ rest ih =>
    intro s h
    rw [last]
    split
    · exact ordered s h
    · rename_i hopen
      rw [Bool.not_eq_true] at hopen
      exact ih _ (moved _ (ordered s h) s.abs_ordered_le hopen)

theorem brackets_last (ht : 0 < t) (rest : ℕ) (h : s.Brackets g a b) :
    (last g t rest s).Brackets g a b := by
  refine last_invariant (P := (·.Brackets g a b)) (fun _ h => h.ordered) ?_ rest s h
  intro s h _ hopen
  obtain ⟨hwide, hb⟩ := State.settled_eq_false_iff.1 hopen
  exact h.moved hb (State.next_mem ht hwide)

/-- In the last state the last point is the better one of the two. -/
theorem abs_last_le (g : ℚ → ℚ) (t : ℚ) (rest : ℕ) (s : State) :
    |(last g t rest s).fb| ≤ |(last g t rest s).fc| := by
  induction rest generalizing s with
  | zero => exact s.abs_ordered_le
  | succ rest ih =>
    rw [last]
    split
    · exact s.abs_ordered_le
    · exact ih _

/-- **What the rounds return of the state `e` in which they end**: its last point if that settles
the search, and otherwise, when no round is left, the point that would have come next. -/
structure Returns (t : ℚ) (e : State) (r : Solution) : Prop where
  value : r.value = if e.settled t then e.b else e.next t
  error : r.error = |e.half|
  rounds_le : r.rounds ≤ maxRounds
  settled : r.rounds < maxRounds → e.settled t = true

theorem returns_rounds (g : ℚ → ℚ) (t : ℚ) (rest : ℕ) (s : State) :
    Returns t (last g t rest s) (rounds g t rest s) ∧
      maxRounds - rest ≤ (rounds g t rest s).rounds := by
  induction rest generalizing s with
  | zero =>
    refine ⟨⟨rfl, rat_abs_eq _, le_rfl, fun h => absurd h (lt_irrefl _)⟩, ?_⟩
    exact Nat.sub_le _ _
  | succ rest ih =>
    rw [rounds, last]
    dsimp only
    split
    · rename_i hsettled
      refine ⟨⟨by rw [if_pos hsettled], rat_abs_eq _, Nat.sub_le _ _, fun _ => hsettled⟩, le_rfl⟩
    · obtain ⟨h, hrounds⟩ := ih (s.ordered.moved t (s.ordered.next t) (g (s.ordered.next t)))
      exact ⟨h, by omega⟩

end Brent

/-- The rounds of a search between two points where `g` has opposite signs. -/
theorem brent_eq_rounds {f : ℚ → ℚ} {a b : ℚ} {goal : Goal} (ht : 0 < goal.tolerance)
    (h : goal.gap f a * goal.gap f b < 0) :
    brent f a b goal = .ok (Brent.rounds (goal.gap f) goal.tolerance (maxRounds - 1)
      (.ofEnds (goal.gap f) a b)) := by
  unfold brent
  dsimp only
  rw [Goal.checkTolerance_of_pos ht, goal.checkBracket_of_mul_neg h]
  rfl

end RadixCalc
