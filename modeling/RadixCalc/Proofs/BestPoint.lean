import Mathlib.Algebra.Order.Ring.Pow
import Mathlib.Order.Interval.Set.Monotone
import RadixCalc.Proofs.Bracket

/-!
# The best point of Brent's method

For a function that goes one way, the last point of every round is as near to the target as both
ends of the search. It is the value returned when the search settles. When the rounds run out, the
value is the point after it, where the function has not been computed, and that may be further off.

* `abs_le_of_across`: between two numbers on either side of zero, what is across from the second is
  nearer to zero than the first.
* `Brent.State.Near`: what every round keeps; `Brent.State.Near.abs_next_le`: the point after it.
* `Brent.finish`: the state in which a search ends.
* `brent_best_of_settled`: the value, the last point, and the ends of the search.
* `brent_passes_best`: a search that returns a point further off than an end.
-/

namespace RadixCalc

theorem abs_le_of_across {x y z : ℚ} (hx : x ∈ Set.uIcc y z) (hz : z ≠ 0) (hy : y * z ≤ 0)
    (hxz : x * z ≤ 0) : |x| ≤ |y| := by
  rcases lt_or_gt_of_ne hz with hneg | hpos
  · have hy0 : 0 ≤ y := nonneg_of_mul_nonpos_left hy hneg
    have hx0 : 0 ≤ x := nonneg_of_mul_nonpos_left hxz hneg
    rw [Set.uIcc_of_ge (hneg.le.trans hy0)] at hx
    rw [abs_of_nonneg hx0, abs_of_nonneg hy0]
    exact hx.2
  · have hy0 : y ≤ 0 := nonpos_of_mul_nonpos_left hy hpos
    have hx0 : x ≤ 0 := nonpos_of_mul_nonpos_left hxz hpos
    rw [Set.uIcc_of_le (hy0.trans hpos.le)] at hx
    rw [abs_of_nonpos hx0, abs_of_nonpos hy0]
    exact neg_le_neg hx.1

theorem abs_le_max_of_mem_uIcc {x y z : ℚ} (hx : x ∈ Set.uIcc y z) : |x| ≤ max |y| |z| := by
  rcases Set.mem_uIcc.1 hx with ⟨h₁, h₂⟩ | ⟨h₁, h₂⟩
  · exact abs_le_max_abs_abs h₁ h₂
  · rw [max_comm]
    exact abs_le_max_abs_abs h₁ h₂

/-- A function that goes one way keeps what lies between two points between their values. -/
theorem mem_uIcc_of_monotone {g : ℚ → ℚ} (hg : Monotone g ∨ Antitone g) {x u v : ℚ}
    (hx : x ∈ Set.uIcc u v) : g x ∈ Set.uIcc (g u) (g v) := by
  rcases hg with hg | hg
  · exact (hg.monotoneOn _).mapsTo_uIcc hx
  · exact (hg.antitoneOn _).mapsTo_uIcc hx

theorem Goal.gap_monotone {f : ℚ → ℚ} (goal : Goal) (hf : Monotone f ∨ Antitone f) :
    Monotone (goal.gap f) ∨ Antitone (goal.gap f) :=
  hf.imp (fun hf _ _ hxy => sub_le_sub_right (hf hxy) _)
    (fun hf _ _ hxy => sub_le_sub_right (hf hxy) _)

namespace Brent

variable {g : ℚ → ℚ} {a b t M : ℚ} {s : State}

namespace State

/-- A bracket of which one end is within `M` of the target. -/
structure Near (g : ℚ → ℚ) (a b M : ℚ) (s : State) : Prop where
  brackets : s.Brackets g a b
  near : min |s.fb| |s.fc| ≤ M

theorem Near.ordered (h : s.Near g a b M) : s.ordered.Near g a b M := by
  refine ⟨h.brackets.ordered, ?_⟩
  rcases s.ordered_cases with ⟨-, heq⟩ | ⟨-, heq⟩
  · rw [heq, min_comm]
    exact h.near
  · rw [heq]
    exact h.near

theorem Near.abs_fb_le (h : s.Near g a b M) (hbest : |s.fb| ≤ |s.fc|) : |s.fb| ≤ M := by
  have := h.near
  rwa [min_eq_left hbest] at this

/-- What `g` is at the next point lies between what it is at the two ends. -/
theorem Near.next_between (hg : Monotone g ∨ Antitone g) (ht : 0 < t) (h : s.Near g a b M)
    (hopen : s.settled t = false) : g (s.next t) ∈ Set.uIcc s.fb s.fc := by
  rw [h.brackets.value_b, h.brackets.value_c]
  exact mem_uIcc_of_monotone hg (next_mem ht (settled_eq_false_iff.1 hopen).1)

/-- **A round keeps an end of the bracket near the target**: the last point becomes the other end,
or the new point is on its side and no further off. -/
theorem Near.moved (hg : Monotone g ∨ Antitone g) (ht : 0 < t) (h : s.Near g a b M)
    (hbest : |s.fb| ≤ |s.fc|) (hopen : s.settled t = false) :
    (s.moved t (s.next t) (g (s.next t))).Near g a b M := by
  obtain ⟨hwide, hb⟩ := settled_eq_false_iff.1 hopen
  have hfb := h.abs_fb_le hbest
  refine ⟨h.brackets.moved hb (next_mem ht hwide), ?_⟩
  obtain ⟨-, hfx, ⟨-, -, hfc⟩ | ⟨hacross, -, -⟩⟩ := s.moved_cases t (s.next t) (g (s.next t))
  · rw [hfc]
    exact (min_le_right _ _).trans hfb
  · have hnext := abs_le_of_across (h.next_between hg ht hopen) h.brackets.fc_ne_zero
      h.brackets.apart (mul_nonpos_of_not_iff h.brackets.fc_ne_zero hacross)
    rw [hfx]
    exact (min_le_left _ _).trans (hnext.trans hfb)

/-- The next point is near the target if it is on the side of the last one, or if the end across is
near too. -/
theorem Near.abs_next_le (hg : Monotone g ∨ Antitone g) (ht : 0 < t) (h : s.Near g a b M)
    (hbest : |s.fb| ≤ |s.fc|) (hopen : s.settled t = false)
    (hcase : 0 ≤ s.fb * g (s.next t) ∨ |s.fc| ≤ M) : |g (s.next t)| ≤ M := by
  have hbetween := h.next_between hg ht hopen
  have hfb := h.abs_fb_le hbest
  rcases hcase with hsame | hfar
  · have hb := (settled_eq_false_iff.1 hopen).2
    have hc := h.brackets.fc_ne_zero
    have hapart := h.brackets.apart
    have hacross : g (s.next t) * s.fc ≤ 0 := by
      rcases lt_or_gt_of_ne hb with hneg | hpos
      · exact mul_nonpos_of_nonpos_of_nonneg (nonpos_of_mul_nonneg_right hsame hneg)
          (nonneg_of_mul_nonpos_right hapart hneg)
      · exact mul_nonpos_of_nonneg_of_nonpos (nonneg_of_mul_nonneg_right hsame hpos)
          (nonpos_of_mul_nonpos_right hapart hpos)
    exact (abs_le_of_across hbetween hc hapart hacross).trans hfb
  · exact (abs_le_max_of_mem_uIcc hbetween).trans (max_le hfb hfar)

end State

/-- One end of every bracket is as near to the target as both ends of the search. -/
theorem near_last (hg : Monotone g ∨ Antitone g) (ht : 0 < t) (rest : ℕ) (h : s.Near g a b M) :
    (last g t rest s).Near g a b M :=
  last_invariant (P := (·.Near g a b M)) (fun _ h => h.ordered)
    (fun _ h hbest hopen => h.moved hg ht hbest hopen) rest s h

/-- The state in which the search between two points ends. -/
def finish (f : ℚ → ℚ) (a b : ℚ) (goal : Goal) : State :=
  last (goal.gap f) goal.tolerance (maxRounds - 1) (.ofEnds (goal.gap f) a b)

end Brent

/-- **The value of a search is as near to the target as both ends**, for a function that goes one
way, if the search settles. In any case that holds of the last point computed, which is the value of
a search that settles. A search that does not settle returns the point after it, and for that it
holds too if it is on the same side of the target, or if the end across is itself as near. -/
theorem brent_best_of_settled (f : ℚ → ℚ) (a b : ℚ) (goal : Goal) (hf : Monotone f ∨ Antitone f)
    (ht : 0 < goal.tolerance) (h : goal.gap f a * goal.gap f b < 0) :
    ∃ r e, brent f a b goal = .ok r ∧ e = Brent.finish f a b goal ∧
      |goal.gap f e.b| ≤ min |goal.gap f a| |goal.gap f b| ∧
      (e.settled goal.tolerance = true → r.value = e.b) ∧
      (e.settled goal.tolerance = false →
        r.rounds = maxRounds ∧ r.value = e.next goal.tolerance) ∧
      (e.settled goal.tolerance = true ∨ 0 ≤ goal.gap f e.b * goal.gap f r.value ∨
          |goal.gap f e.c| ≤ min |goal.gap f a| |goal.gap f b| →
        |goal.gap f r.value| ≤ min |goal.gap f a| |goal.gap f b|) := by
  have hg := goal.gap_monotone hf
  set M := min |goal.gap f a| |goal.gap f b| with hM
  have hstart : (Brent.State.ofEnds (goal.gap f) a b).Near (goal.gap f) a b M :=
    ⟨Brent.State.brackets_ofEnds h, (min_comm _ _).le⟩
  have hreturns := (Brent.returns_rounds (goal.gap f) goal.tolerance (maxRounds - 1)
    (.ofEnds (goal.gap f) a b)).1
  have hnear := Brent.near_last hg ht (maxRounds - 1) hstart
  have hbest := Brent.abs_last_le (goal.gap f) goal.tolerance (maxRounds - 1)
    (.ofEnds (goal.gap f) a b)
  change Brent.Returns _ (Brent.finish f a b goal) _ at hreturns
  change (Brent.finish f a b goal).Near _ a b M at hnear
  change |(Brent.finish f a b goal).fb| ≤ |(Brent.finish f a b goal).fc| at hbest
  set e := Brent.finish f a b goal
  have hlast := hnear.abs_fb_le hbest
  rw [hnear.brackets.value_b] at hlast
  refine ⟨_, e, brent_eq_rounds ht h, rfl, hlast, ?_, ?_, ?_⟩
  · intro hsettled
    rw [hreturns.value, if_pos hsettled]
  · intro hopen
    refine ⟨le_antisymm hreturns.rounds_le (not_lt.1 fun hearly => ?_), ?_⟩
    · rw [hreturns.settled hearly] at hopen
      cases hopen
    · rw [hreturns.value, hopen]
      rfl
  · intro hcase
    rw [hreturns.value] at hcase ⊢
    by_cases hsettled : e.settled goal.tolerance = true
    · rw [if_pos hsettled]
      exact hlast
    · -- the value is the point after the last one
      rw [if_neg hsettled] at hcase ⊢
      have hcase := hcase.resolve_left hsettled
      rw [← hnear.brackets.value_b, ← hnear.brackets.value_c] at hcase
      rw [Bool.not_eq_true] at hsettled
      exact hnear.abs_next_le hg ht hbest hsettled hcase

/-- The cube root of two between one and two, to a hundredth: the search settles. -/
theorem brent_best_of_cube :
    ∃ r e, brent (fun x => x ^ 3) 1 2 ⟨1 / 100, 2⟩ = .ok r ∧
      e = Brent.finish (fun x => x ^ 3) 1 2 ⟨1 / 100, 2⟩ ∧ e.settled (1 / 100) = true ∧
      |r.value ^ 3 - 2| ≤ min |(1 : ℚ) ^ 3 - 2| |(2 : ℚ) ^ 3 - 2| := by
  have hsettled : (Brent.finish (fun x => x ^ 3) 1 2 ⟨1 / 100, 2⟩).settled (1 / 100) = true := by
    decide +kernel
  obtain ⟨r, e, hr, rfl, -, -, -, hbest⟩ := brent_best_of_settled (fun x => x ^ 3) 1 2 ⟨1 / 100, 2⟩
    (.inl (Odd.strictMono_pow (by decide)).monotone) (by norm_num) (by norm_num [Goal.gap])
  exact ⟨r, _, hr, rfl, hsettled, hbest (.inl hsettled)⟩

/-- The function that goes from `low` up to `high` at `x`. -/
def stepAt (x low high y : ℚ) : ℚ := if y < x then low else high

theorem stepAt_monotone {low high : ℚ} (h : low ≤ high) (x : ℚ) : Monotone (stepAt x low high) := by
  intro y z hyz
  unfold stepAt
  by_cases hz : z < x
  · rw [if_pos hz, if_pos (hyz.trans_lt hz)]
  · rw [if_neg hz]
    split
    · exact h
    · exact le_rfl

/-- **A search need not return its best point.** The step from `-3` up to `1` at a hundredth is
searched between zero and `2 ^ 40`. The rounds run out with `21 / 2048` as the last point, where the
step is as near to zero as at one end; the value is a point below the step. -/
theorem brent_passes_best :
    Monotone (stepAt (1 / 100) (-3) 1) ∧ 0 < Goal.tolerance {} ∧
    Goal.gap {} (stepAt (1 / 100) (-3) 1) 0 * Goal.gap {} (stepAt (1 / 100) (-3) 1) (2 ^ 40) < 0 ∧
    brent (stepAt (1 / 100) (-3) 1) 0 (2 ^ 40) {} = .ok ⟨33 / 4096, 50, 9 / 4096⟩ ∧
    (Brent.finish (stepAt (1 / 100) (-3) 1) 0 (2 ^ 40) {}).b = 21 / 2048 ∧
    ¬ |Goal.gap {} (stepAt (1 / 100) (-3) 1) (33 / 4096)| ≤
      min |Goal.gap {} (stepAt (1 / 100) (-3) 1) 0|
        |Goal.gap {} (stepAt (1 / 100) (-3) 1) (2 ^ 40)| :=
  ⟨stepAt_monotone (by norm_num) _, by decide +kernel, by decide +kernel, by decide +kernel,
    by decide +kernel, by norm_num [Goal.gap, stepAt]⟩

end RadixCalc
