import RadixCalc.Proofs.Bracket
import RadixCalc.Solve.Newton

/-!
# The steps of Newton's method

The rounds follow the points `x`, `step x`, `step (step x)`, … whatever the function and its slope.
They stop at the first slope of zero, at the first step within the tolerance, or when none is left.

* `Newton.point`: the points in their order.
* `Newton.Reaches`: the points at which the slope is computed.
* `Newton.Arrives`: the last of them, when no slope is zero.
* `Newton.rounds_cases`, `Newton.rounds_congr`: what the rounds return, and what it depends on.
* `Newton.abs_step_sub_le`, `Newton.abs_gap_le`: what a step says of the function.
* `newton_cases`, `newton_congr`, `newton_last_step`: the solution and its last step.
-/

namespace RadixCalc

namespace Newton

variable {g g' slope slope' : ℚ → ℚ} {t x error : ℚ} {done rest k : ℕ}

/-- Where a round from `x` ends. -/
def step (g slope : ℚ → ℚ) (t x : ℚ) : ℚ := tangent t x (g x) (slope x)

/-- The point behind `k` rounds from `x`. -/
def point (g slope : ℚ → ℚ) (t x : ℚ) (k : ℕ) : ℚ := (step g slope t)^[k] x

theorem point_zero (g slope : ℚ → ℚ) (t x : ℚ) : point g slope t x 0 = x := rfl

theorem point_succ (g slope : ℚ → ℚ) (t x : ℚ) (k : ℕ) :
    point g slope t x (k + 1) = step g slope t (point g slope t x k) :=
  Function.iterate_succ_apply' _ k x

/-- The points from `x` are `x` and the points from where a round ends. -/
theorem point_step (g slope : ℚ → ℚ) (t x : ℚ) (k : ℕ) :
    point g slope t (step g slope t x) k = point g slope t x (k + 1) := rfl

/-! ## The points at which the slope is computed -/

/-- **The slope is computed at the point `k`** by a number of rounds from `x`: there are rounds enough,
and at no point before is the slope zero or the step within the tolerance. -/
structure Reaches (g slope : ℚ → ℚ) (t x : ℚ) (rounds k : ℕ) : Prop where
  lt : k < rounds
  slope_ne_zero : ∀ j < k, slope (point g slope t x j) ≠ 0
  far : ∀ j < k, t < |point g slope t x (j + 1) - point g slope t x j|

/-- **The rounds arrive from the point `k`**: the slope there is not zero, and the step is the last one
there is or within the tolerance. -/
structure Arrives (g slope : ℚ → ℚ) (t x : ℚ) (rounds k : ℕ) : Prop where
  reaches : Reaches g slope t x rounds k
  slope_ne_zero : slope (point g slope t x k) ≠ 0
  last : k + 1 = rounds ∨ |point g slope t x (k + 1) - point g slope t x k| ≤ t

theorem reaches_zero (g slope : ℚ → ℚ) (t x : ℚ) (rest : ℕ) : Reaches g slope t x (rest + 1) 0 where
  lt := Nat.succ_pos rest
  slope_ne_zero := nofun
  far := nofun

/-- What is reached from the end of the first round is reached from its start. -/
theorem Reaches.succ (h : Reaches g slope t (step g slope t x) rest k) (hslope : slope x ≠ 0)
    (hfar : t < |step g slope t x - x|) : Reaches g slope t x (rest + 1) (k + 1) where
  lt := Nat.succ_lt_succ h.lt
  slope_ne_zero := by
    rintro (_ | j) hj
    · exact hslope
    · exact h.slope_ne_zero j (Nat.lt_of_succ_lt_succ hj)
  far := by
    rintro (_ | j) hj
    · exact hfar
    · exact h.far j (Nat.lt_of_succ_lt_succ hj)

theorem Arrives.succ (h : Arrives g slope t (step g slope t x) rest k) (hslope : slope x ≠ 0)
    (hfar : t < |step g slope t x - x|) : Arrives g slope t x (rest + 1) (k + 1) where
  reaches := h.reaches.succ hslope hfar
  slope_ne_zero := h.slope_ne_zero
  last := h.last.imp_left fun hlast => by rw [hlast]

/-- Rounds that arrive meet no slope of zero: past the point from which they arrive they go nowhere. -/
theorem Arrives.ne_zero_of_reaches {j : ℕ} (h : Arrives g slope t x rest k)
    (hj : Reaches g slope t x rest j) : slope (point g slope t x j) ≠ 0 := by
  rcases lt_trichotomy j k with hlt | rfl | hgt
  · exact h.reaches.slope_ne_zero j hlt
  · exact h.slope_ne_zero
  · -- past `k` there is no round left, or the step from `k` ends the search
    have hlt := hj.lt
    rcases h.last with hlast | hnear
    · omega
    · exact absurd hnear (not_le.2 (hj.far k hgt))

/-! ## All rounds -/

/-- Rounds behind a step within the tolerance, or with none left, have arrived. -/
theorem rounds_of_last (h : rest = 0 ∨ error ≤ t) :
    rounds g slope t x error done rest = .ok ⟨x, done, error⟩ := by
  cases rest with
  | zero => rfl
  | succ rest => rw [rounds, if_pos (h.resolve_left (Nat.succ_ne_zero rest))]

theorem rounds_succ (h : t < error) : rounds g slope t x error done (rest + 1) =
    if slope x = 0 then .error .divisionByZero
    else rounds g slope t (step g slope t x) |step g slope t x - x| (done + 1) rest := by
  rw [rounds, if_neg (not_le.2 h)]
  dsimp only
  rw [rat_abs_eq]
  rfl

/-- **What the rounds return**, by induction on their number: they come to a slope of zero at a point
that they reach, or they arrive. -/
theorem rounds_cases (g slope : ℚ → ℚ) (rest : ℕ) : ∀ (done : ℕ) {x error : ℚ}, t < error →
    (∃ k, Reaches g slope t x (rest + 1) k ∧ slope (point g slope t x k) = 0 ∧
      rounds g slope t x error done (rest + 1) = .error .divisionByZero) ∨
    ∃ k, Arrives g slope t x (rest + 1) k ∧
      rounds g slope t x error done (rest + 1) = .ok ⟨point g slope t x (k + 1), done + k + 1,
        |point g slope t x (k + 1) - point g slope t x k|⟩ := by
  induction rest with
  | zero =>
    -- the last round arrives, whatever the length of its step
    intro done x error herror
    rw [rounds_succ herror]
    by_cases hslope : slope x = 0
    · exact .inl ⟨0, reaches_zero g slope t x 0, hslope, if_pos hslope⟩
    · rw [if_neg hslope]
      exact .inr ⟨0, ⟨reaches_zero g slope t x 0, hslope, .inl rfl⟩, rounds_of_last (.inl rfl)⟩
  | succ rest ih =>
    intro done x error herror
    rw [rounds_succ herror]
    by_cases hslope : slope x = 0
    · exact .inl ⟨0, reaches_zero g slope t x _, hslope, if_pos hslope⟩
    rw [if_neg hslope]
    rcases le_or_gt |step g slope t x - x| t with hnear | hfar
    · exact .inr ⟨0, ⟨reaches_zero g slope t x _, hslope, .inr hnear⟩, rounds_of_last (.inr hnear)⟩
    rcases ih (done + 1) hfar with ⟨k, hk, hzero, heq⟩ | ⟨k, hk, heq⟩
    · exact .inl ⟨k + 1, hk.succ hslope hfar, hzero, heq⟩
    · refine .inr ⟨k + 1, hk.succ hslope hfar, ?_⟩
      rw [heq, point_step, point_step, Nat.add_right_comm done 1 k, Nat.add_assoc done k 1]

/-- **The rounds depend on nothing but the values at the points they reach.** -/
theorem rounds_congr (rest : ℕ) : ∀ {x error : ℚ} {done : ℕ}, t < error →
    (∀ k, Reaches g slope t x rest k → g' (point g slope t x k) = g (point g slope t x k) ∧
      slope' (point g slope t x k) = slope (point g slope t x k)) →
    rounds g' slope' t x error done rest = rounds g slope t x error done rest := by
  induction rest with
  | zero =>
    intro x error done _ _
    rfl
  | succ rest ih =>
    intro x error done herror hagree
    obtain ⟨hg, hs⟩ := hagree 0 (reaches_zero g slope t x rest)
    rw [point_zero] at hg hs
    have hstep : step g' slope' t x = step g slope t x := by
      unfold step
      rw [hg, hs]
    rw [rounds_succ herror, rounds_succ herror, hs, hstep]
    split
    · rfl
    rename_i hslope
    rcases le_or_gt |step g slope t x - x| t with hnear | hfar
    · rw [rounds_of_last (.inr hnear), rounds_of_last (.inr hnear)]
    · exact ih hfar fun k hk => hagree (k + 1) (hk.succ hslope hfar)

/-! ## One step -/

/-- A step ends within half a grid step of where the tangent is zero. -/
theorem abs_step_sub_le (ht : 0 < t) (g slope : ℚ → ℚ) (x : ℚ) :
    |step g slope t x - (x - g x / slope x)| ≤ t / 32 := by
  have hround := abs_roundTo_sub_le (gridStep_pos ht) (x - g x / slope x)
  unfold step tangent
  rw [gridStep_eq] at hround ⊢
  linarith

/-- **A step within the tolerance bounds the function** by the tolerance and a little times the
slope. -/
theorem abs_gap_le (ht : 0 < t) (hslope : slope x ≠ 0) (hnear : |step g slope t x - x| ≤ t) :
    |g x| ≤ 33 / 32 * t * |slope x| := by
  obtain ⟨hlow, hhigh⟩ := abs_le.1 (abs_step_sub_le ht g slope x)
  obtain ⟨hdown, hup⟩ := abs_le.1 hnear
  have hquotient : |g x / slope x| ≤ 33 / 32 * t := abs_le.2 ⟨by linarith, by linarith⟩
  rwa [abs_div, div_le_iff₀ (abs_pos.2 hslope)] at hquotient

end Newton

section

variable {f f' slope slope' : ℚ → ℚ} {start : ℚ} {goal : Goal}

theorem newton_eq_rounds (ht : 0 < goal.tolerance) : newton f slope start goal =
    Newton.rounds (goal.gap f) slope goal.tolerance start (goal.tolerance * 2) 0 maxRounds := by
  unfold newton
  rw [Goal.checkTolerance_of_pos ht]
  rfl

/-- A search comes to a slope of zero, or it arrives. -/
theorem newton_cases (f slope : ℚ → ℚ) (start : ℚ) (ht : 0 < goal.tolerance) :
    (∃ k, Newton.Reaches (goal.gap f) slope goal.tolerance start maxRounds k ∧
      slope (Newton.point (goal.gap f) slope goal.tolerance start k) = 0 ∧
      newton f slope start goal = .error .divisionByZero) ∨
    ∃ k x, Newton.Arrives (goal.gap f) slope goal.tolerance start maxRounds k ∧
      x = Newton.point (goal.gap f) slope goal.tolerance start k ∧
      newton f slope start goal = .ok ⟨Newton.step (goal.gap f) slope goal.tolerance x, k + 1,
        |Newton.step (goal.gap f) slope goal.tolerance x - x|⟩ := by
  have hlong : goal.tolerance < goal.tolerance * 2 := by linarith
  rw [newton_eq_rounds ht]
  rcases Newton.rounds_cases (goal.gap f) slope 49 0 (x := start) hlong with
    hfails | ⟨k, hk, heq⟩
  · exact .inl hfails
  · rw [Newton.point_succ, Nat.zero_add] at heq
    exact .inr ⟨k, _, hk, rfl, heq⟩

/-- Functions and slopes that agree at the points of a search give the same one. -/
theorem newton_congr (ht : 0 < goal.tolerance)
    (h : ∀ k, Newton.Reaches (goal.gap f) slope goal.tolerance start maxRounds k →
      f' (Newton.point (goal.gap f) slope goal.tolerance start k) =
        f (Newton.point (goal.gap f) slope goal.tolerance start k) ∧
      slope' (Newton.point (goal.gap f) slope goal.tolerance start k) =
        slope (Newton.point (goal.gap f) slope goal.tolerance start k)) :
    newton f' slope' start goal = newton f slope start goal := by
  have hlong : goal.tolerance < goal.tolerance * 2 := by linarith
  rw [newton_eq_rounds ht, newton_eq_rounds ht]
  refine Newton.rounds_congr maxRounds hlong fun k hk => (h k hk).imp_left fun hf => ?_
  rw [Goal.gap, hf]
  rfl

end

/-- **The last step of Newton's method vouches for its solution**, whatever the function and its slope.
The search fails where it reaches a slope of zero, and in no other way; it depends on nothing but the
values at the points that it reaches. Otherwise it returns a point of the grid in fifty rounds at
most, together with the length of the last step. That step starts from a point where the slope is
not zero, and ends within half a grid step of where the tangent there meets the target. If rounds are
left, the step is within the tolerance, and the gap at its start is at most 33/32 of the tolerance
times the slope. -/
theorem newton_last_step (f slope : ℚ → ℚ) (start : ℚ) (goal : Goal) (ht : 0 < goal.tolerance) :
    (newton f slope start goal = .error .divisionByZero ↔
      ∃ k, Newton.Reaches (goal.gap f) slope goal.tolerance start maxRounds k ∧
        slope (Newton.point (goal.gap f) slope goal.tolerance start k) = 0) ∧
    (∀ e, newton f slope start goal = .error e → e = .divisionByZero) ∧
    (∀ f' slope' : ℚ → ℚ, (∀ k,
        Newton.Reaches (goal.gap f) slope goal.tolerance start maxRounds k →
        f' (Newton.point (goal.gap f) slope goal.tolerance start k) =
          f (Newton.point (goal.gap f) slope goal.tolerance start k) ∧
        slope' (Newton.point (goal.gap f) slope goal.tolerance start k) =
          slope (Newton.point (goal.gap f) slope goal.tolerance start k)) →
      newton f' slope' start goal = newton f slope start goal) ∧
    ((∀ k, Newton.Reaches (goal.gap f) slope goal.tolerance start maxRounds k →
        slope (Newton.point (goal.gap f) slope goal.tolerance start k) ≠ 0) →
      ∃ r, newton f slope start goal = .ok r ∧ 1 ≤ r.rounds ∧ r.rounds ≤ maxRounds ∧
        (∃ m : ℤ, r.value = m * (goal.tolerance / 16)) ∧
        ∃ k x, Newton.Reaches (goal.gap f) slope goal.tolerance start maxRounds k ∧
          x = Newton.point (goal.gap f) slope goal.tolerance start k ∧ r.rounds = k + 1 ∧
          slope x ≠ 0 ∧ |r.value - x| = r.error ∧
          |r.value - (x - goal.gap f x / slope x)| ≤ goal.tolerance / 32 ∧
          (r.rounds < maxRounds → r.error ≤ goal.tolerance ∧
            |goal.gap f x| ≤ 33 / 32 * goal.tolerance * |slope x|)) := by
  rcases newton_cases f slope start ht with
    ⟨k, hk, hzero, heq⟩ | ⟨k, x, hk, rfl, heq⟩
  · refine ⟨⟨fun _ => ⟨k, hk, hzero⟩, fun _ => heq⟩, ?_, fun _ _ => newton_congr ht,
      fun hne => absurd hzero (hne k hk)⟩
    intro e he
    exact (Except.error.inj (heq.symm.trans he)).symm
  · -- the search arrives, so it meets no slope of zero
    have hok : ∀ e, newton f slope start goal ≠ .error e := by
      intro e he
      cases heq.symm.trans he
    have hlt := hk.reaches.lt
    refine ⟨⟨fun he => absurd he (hok _), ?_⟩, fun e he => absurd he (hok e),
      fun _ _ => newton_congr ht, fun _ => ?_⟩
    · rintro ⟨j, hj, hzero⟩
      exact absurd hzero (hk.ne_zero_of_reaches hj)
    refine ⟨_, heq, Nat.succ_pos k, hlt, ⟨_, rfl⟩, k, _, hk.reaches, rfl, rfl, hk.slope_ne_zero, rfl,
      Newton.abs_step_sub_le ht _ slope _, ?_⟩
    intro hearly
    have hnear := hk.last.resolve_left (Nat.ne_of_lt hearly)
    rw [Newton.point_succ] at hnear
    exact ⟨hnear, Newton.abs_gap_le ht hk.slope_ne_zero hnear⟩

/-- The square root of two from one, to a hundredth, and the search from zero, where the slope is
zero. -/
theorem newton_last_step_square :
    newton (fun x => x ^ 2) (fun x => 2 * x) 1 ⟨1 / 100, 2⟩ = .ok ⟨2263 / 1600, 3, 1 / 400⟩ ∧
    (∃ x : ℚ, 2 * x ≠ 0 ∧ |2263 / 1600 - x| = 1 / 400 ∧
      |2263 / 1600 - (x - (x ^ 2 - 2) / (2 * x))| ≤ 1 / 100 / 32 ∧
      |x ^ 2 - 2| ≤ 33 / 32 * (1 / 100) * |2 * x|) ∧
    newton (fun x => x ^ 2) (fun x => 2 * x) 0 ⟨1 / 100, 2⟩ = .error .divisionByZero := by
  have hrun : newton (fun x => x ^ 2) (fun x => 2 * x) 1 ⟨1 / 100, 2⟩ =
      .ok ⟨2263 / 1600, 3, 1 / 400⟩ := by
    decide +kernel
  obtain ⟨hzero, -, -, hok⟩ := newton_last_step (fun x => x ^ 2) (fun x => 2 * x) 1 ⟨1 / 100, 2⟩
    (by norm_num)
  obtain ⟨r, hr, -, -, -, k, x, -, -, -, hslope, herror, hvalue, hnear⟩ := hok fun k hk hslope => by
    cases hrun.symm.trans (hzero.2 ⟨k, hk, hslope⟩)
  obtain rfl := Except.ok.inj (hrun.symm.trans hr)
  refine ⟨hrun, ⟨x, hslope, herror, hvalue, (hnear (by decide)).2⟩, ?_⟩
  refine (newton_last_step (fun x => x ^ 2) (fun x => 2 * x) 0 ⟨1 / 100, 2⟩ (by norm_num)).1.2 ?_
  exact ⟨0, Newton.reaches_zero _ _ _ _ 49, mul_zero 2⟩

end RadixCalc
