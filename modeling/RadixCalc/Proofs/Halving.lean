import Mathlib.Algebra.Order.Field.Basic
import Mathlib.Order.Bounds.Basic
import Mathlib.Tactic.FieldSimp
import Mathlib.Tactic.Positivity
import RadixCalc.Proofs.Bracket
import RadixCalc.Solve.Bisection

/-!
# The bracket of the bisection

A bisection keeps the left end of the bracket and its width. The right end is where `g` has the
other sign, though neither is kept, and the width is the first one over a power of two.

* `Bisection.Halved`: what is known after a number of halvings.
* `Bisection.Halved.rightHalf`, `Bisection.Halved.leftHalf`: either half.
* `Bisection.IsFirstNarrow`: how many halvings make a width no wider than the tolerance.
* `Bisection.Final`, `Bisection.final_halve`: what the halvings return.
* `bisect_eq_ok`, `bisect_eq_error`, `bisect_final_bracket`: the solution between two points.
-/

namespace RadixCalc

namespace Bisection

variable {g : ℚ → ℚ} {t lo hi left width atLeft : ℚ} {done rest : ℕ}

/-! ## Either half -/

/-- **The bracket after `done` halvings** of the one from `lo` to `hi`, which is the part of it from
`left` of width `width`. None of the brackets before was narrow enough. -/
structure Halved (g : ℚ → ℚ) (t lo hi left width : ℚ) (done : ℕ) : Prop where
  pos : 0 < width
  width_eq : width = (hi - lo) / 2 ^ done
  wide : ∀ k < done, t < (hi - lo) / 2 ^ k
  lo_le : lo ≤ left
  le_hi : left + width ≤ hi
  changes : g left * g (left + width) < 0

theorem Halved.wide_succ (h : Halved g t lo hi left width done) (hwide : t < width) :
    ∀ k < done + 1, t < (hi - lo) / 2 ^ k := by
  intro k hk
  rcases Nat.lt_or_eq_of_le (Nat.le_of_lt_succ hk) with hlt | rfl
  · exact h.wide k hlt
  · rwa [← h.width_eq]

theorem Halved.half_eq (h : Halved g t lo hi left width done) :
    width / 2 = (hi - lo) / 2 ^ (done + 1) := by
  rw [h.width_eq, pow_succ]
  field_simp

/-- The right half, if `g` has the same sign in the middle as at the left end. -/
theorem Halved.rightHalf (h : Halved g t lo hi left width done) (hwide : t < width)
    (hmiddle : g (left + width / 2) ≠ 0) (hsame : g left < 0 ↔ g (left + width / 2) < 0) :
    Halved g t lo hi (left + width / 2) (width / 2) (done + 1) where
  pos := half_pos h.pos
  width_eq := h.half_eq
  wide := h.wide_succ hwide
  lo_le := by
    have := h.lo_le
    have := h.pos
    linarith
  le_hi := by
    have := h.le_hi
    linarith
  changes := by
    rw [add_assoc, add_halves]
    rcases mul_neg_iff.1 h.changes with ⟨hl, hr⟩ | ⟨hl, hr⟩
    · have := not_lt.1 (mt hsame.2 hl.not_gt)
      exact mul_neg_of_pos_of_neg (lt_of_le_of_ne this hmiddle.symm) hr
    · exact mul_neg_of_neg_of_pos (hsame.1 hl) hr

/-- The left half, if `g` has the other sign in the middle. -/
theorem Halved.leftHalf (h : Halved g t lo hi left width done) (hwide : t < width)
    (hmiddle : g (left + width / 2) ≠ 0) (hother : ¬(g left < 0 ↔ g (left + width / 2) < 0)) :
    Halved g t lo hi left (width / 2) (done + 1) where
  pos := half_pos h.pos
  width_eq := h.half_eq
  wide := h.wide_succ hwide
  lo_le := h.lo_le
  le_hi := by
    have := h.le_hi
    have := h.pos
    linarith
  changes := by
    rcases mul_neg_iff.1 h.changes with ⟨hl, -⟩ | ⟨hl, -⟩
    · have : g (left + width / 2) < 0 := by
        by_contra hm
        exact hother ⟨fun hl' => absurd hl' hl.not_gt, fun hm' => absurd hm' hm⟩
      exact mul_neg_of_pos_of_neg hl this
    · have : ¬g (left + width / 2) < 0 := fun hm => hother ⟨fun _ => hm, fun _ => hl⟩
      exact mul_neg_of_neg_of_pos hl (lt_of_le_of_ne (not_lt.1 this) hmiddle.symm)

/-! ## All halvings -/

/-- `n` is the least number of halvings, `maxRounds` at most, that make the width no wider than the
tolerance, or it is `maxRounds` and there is no such number. -/
def IsFirstNarrow (width t : ℚ) (n : ℕ) : Prop :=
  IsLeast {k | k ≤ maxRounds ∧ width / 2 ^ k ≤ t} n ∨
    n = maxRounds ∧ ∀ k ≤ maxRounds, t < width / 2 ^ k

/-- **What the halvings return**: the middle of a bracket in which `g` is zero, or the left end of
the last bracket with its width. -/
structure Final (g : ℚ → ℚ) (t lo hi : ℚ) (r : Solution) : Prop where
  lo_le : lo ≤ r.value
  nonneg : 0 ≤ r.error
  le_hi : r.value + r.error ≤ hi
  solves : r.error = 0 ∧ g r.value = 0 ∨
    g r.value * g (r.value + r.error) < 0 ∧ r.error = (hi - lo) / 2 ^ r.rounds ∧
      IsFirstNarrow (hi - lo) t r.rounds

/-- The last bracket, when it is narrow enough or no round is left. -/
theorem Halved.final (h : Halved g t lo hi left width done)
    (hlast : IsFirstNarrow (hi - lo) t done) : Final g t lo hi ⟨left, done, width⟩ where
  lo_le := h.lo_le
  nonneg := h.pos.le
  le_hi := h.le_hi
  solves := .inr ⟨h.changes, h.width_eq, hlast⟩

theorem Halved.isFirstNarrow (h : Halved g t lo hi left width done) (hdone : done ≤ maxRounds)
    (hnarrow : width ≤ t) : IsFirstNarrow (hi - lo) t done := by
  refine .inl ⟨⟨hdone, by rwa [← h.width_eq]⟩, ?_⟩
  rintro k ⟨-, hk⟩
  by_contra hlt
  exact absurd hk (not_le.2 (h.wide k (not_le.1 hlt)))

/-- **What the halvings return**, by induction on the rounds that are left: the sign of `g` in the
middle tells which half has a change of sign. -/
theorem final_halve (g : ℚ → ℚ) (t : ℚ) (rest : ℕ) :
    ∀ {left width : ℚ} {done : ℕ}, done + rest = maxRounds →
      Halved g t lo hi left width done →
      Final g t lo hi (halve g t left width (g left) done rest) := by
  induction rest with
  | zero =>
    intro left width done hdone h
    rw [add_zero] at hdone
    rw [halve]
    refine h.final ?_
    rcases le_or_gt width t with hnarrow | hwide
    · exact h.isFirstNarrow hdone.le hnarrow
    · subst hdone
      exact .inr ⟨rfl, fun k hk => h.wide_succ hwide k (Nat.lt_succ_of_le hk)⟩
  | succ rest ih =>
    intro left width done hdone h
    rw [halve]
    dsimp only
    split
    · rename_i hnarrow
      exact h.final (h.isFirstNarrow (by omega) hnarrow)
    · rename_i hwide
      rw [not_le] at hwide
      have hpos := h.pos
      split
      · rename_i hzero
        have hlo := h.lo_le
        have hhi := h.le_hi
        exact ⟨by dsimp only; linarith, le_rfl, by dsimp only; linarith, .inl ⟨rfl, hzero⟩⟩
      rename_i hmiddle
      split
      · rename_i hsame
        exact ih (by omega) (h.rightHalf hwide hmiddle (iff_of_eq hsame))
      · rename_i hother
        exact ih (by omega) (h.leftHalf hwide hmiddle fun hsame => hother (propext hsame))

end Bisection

variable {f : ℚ → ℚ} {a b : ℚ} {goal : Goal}

/-! ## The solution between two points -/

/-- A bisection sees the two points in their order. -/
theorem bisect_eq (f : ℚ → ℚ) (a b : ℚ) (goal : Goal) : bisect f a b goal =
    (goal.checkTolerance >>= fun _ =>
      goal.checkBracket (goal.gap f (min a b)) (goal.gap f (max a b)) >>= fun _ =>
        .ok (Bisection.halve (goal.gap f) goal.tolerance (min a b) (max a b - min a b)
          (goal.gap f (min a b)) 0 maxRounds)) := by
  unfold bisect
  rw [min_def, max_def]
  rfl

theorem gap_min_mul_gap_max (f : ℚ → ℚ) (a b : ℚ) (goal : Goal) :
    goal.gap f (min a b) * goal.gap f (max a b) = goal.gap f a * goal.gap f b := by
  rcases le_total a b with h | h
  · rw [min_eq_left h, max_eq_right h]
  · rw [min_eq_right h, max_eq_left h, mul_comm]

theorem bisect_eq_ok (ht : 0 < goal.tolerance) (h : goal.gap f a * goal.gap f b < 0) :
    ∃ r, bisect f a b goal = .ok r ∧
      Bisection.Final (goal.gap f) goal.tolerance (min a b) (max a b) r := by
  rw [← gap_min_mul_gap_max] at h
  have hlt : min a b < max a b := by
    refine lt_of_le_of_ne min_le_max fun heq => ?_
    rw [heq] at h
    exact absurd h (mul_self_nonneg _).not_gt
  have hbisect : bisect f a b goal = .ok (Bisection.halve (goal.gap f) goal.tolerance (min a b)
      (max a b - min a b) (goal.gap f (min a b)) 0 maxRounds) := by
    rw [bisect_eq, Goal.checkTolerance_of_pos ht, goal.checkBracket_of_mul_neg h]
    rfl
  refine ⟨_, hbisect, Bisection.final_halve _ _ _ (zero_add _)
    ⟨sub_pos.2 hlt, ?_, ?_, le_rfl, ?_, ?_⟩⟩
  · rw [pow_zero, div_one]
  · intro k hk
    exact absurd hk (Nat.not_lt_zero k)
  · rw [add_sub_cancel]
  · rwa [add_sub_cancel]

/-- Without opposite signs at its ends a bracket is refused, with the values of the function
there. -/
theorem bisect_eq_error (ht : 0 < goal.tolerance) (h : ¬goal.gap f a * goal.gap f b < 0) :
    bisect f a b goal = .error (.badBracket goal.target (f (min a b)) (f (max a b))) := by
  rw [← gap_min_mul_gap_max] at h
  have hbracket : goal.checkBracket (goal.gap f (min a b)) (goal.gap f (max a b)) =
      .error (.badBracket goal.target (f (min a b)) (f (max a b))) := by
    unfold Goal.checkBracket
    rw [if_neg (mt opposite_iff.1 h)]
    unfold Goal.gap
    rw [sub_add_cancel, sub_add_cancel]
  rw [bisect_eq, Goal.checkTolerance_of_pos ht, hbracket]
  rfl

/-- **A bisection keeps the change of sign, and its error is the width of the last bracket**,
whatever the function and in whichever order the two points come: the value and the other end of the
bracket lie between the points, the width is the first one over as many halvings as there were
rounds, and there were no more rounds than the tolerance asks for. A zero met on the way is the
solution. Without opposite signs at the points the search is refused. -/
theorem bisect_final_bracket (f : ℚ → ℚ) (a b : ℚ) (goal : Goal) (ht : 0 < goal.tolerance) :
    (goal.gap f a * goal.gap f b < 0 → ∃ r, bisect f a b goal = .ok r ∧
      r.value ∈ Set.uIcc a b ∧ r.value + r.error ∈ Set.uIcc a b ∧
      (r.error = 0 ∧ goal.gap f r.value = 0 ∨
        goal.gap f r.value * goal.gap f (r.value + r.error) < 0 ∧
        r.error = |b - a| / 2 ^ r.rounds ∧
        Bisection.IsFirstNarrow |b - a| goal.tolerance r.rounds)) ∧
    bisect f b a goal = bisect f a b goal ∧
    (¬goal.gap f a * goal.gap f b < 0 → bisect f a b goal =
      .error (.badBracket goal.target (f (min a b)) (f (max a b)))) := by
  refine ⟨fun h => ?_, ?_, bisect_eq_error ht⟩
  · obtain ⟨r, hr, hfinal⟩ := bisect_eq_ok ht h
    have hlo := hfinal.lo_le
    have hhi := hfinal.le_hi
    have herror := hfinal.nonneg
    refine ⟨r, hr, ⟨hlo, ?_⟩, ⟨?_, hhi⟩, ?_⟩
    · exact (le_add_of_nonneg_right herror).trans hhi
    · exact le_add_of_le_of_nonneg hlo herror
    · rw [← max_sub_min_eq_abs]
      exact hfinal.solves
  · rw [bisect_eq, bisect_eq, min_comm, max_comm]

/-- The square root of two between two and one, with five halvings to make the bracket narrower than
a twentieth, and none between two and three. -/
theorem bisect_square_final_bracket :
    bisect (fun x => x ^ 2) 2 1 ⟨1 / 20, 2⟩ = .ok ⟨45 / 32, 5, 1 / 32⟩ ∧
    Goal.gap ⟨1 / 20, 2⟩ (fun x => x ^ 2) (45 / 32) *
      Goal.gap ⟨1 / 20, 2⟩ (fun x => x ^ 2) (45 / 32 + 1 / 32) < 0 ∧
    Bisection.IsFirstNarrow 1 (1 / 20) 5 ∧
    bisect (fun x => x ^ 2) 3 2 ⟨1 / 20, 2⟩ = .error (.badBracket 2 4 9) := by
  have hrun : bisect (fun x => x ^ 2) 2 1 ⟨1 / 20, 2⟩ = .ok ⟨45 / 32, 5, 1 / 32⟩ := by
    decide +kernel
  have h := bisect_final_bracket (fun x => x ^ 2) 2 1 ⟨1 / 20, 2⟩ (by norm_num)
  have hrefused := (bisect_final_bracket (fun x => x ^ 2) 3 2 ⟨1 / 20, 2⟩ (by norm_num)).2.2
    (by norm_num [Goal.gap])
  obtain ⟨r, hr, -, -, hsolves⟩ := h.1 (by norm_num [Goal.gap])
  rw [hrun] at hr
  obtain rfl := Except.ok.inj hr
  rcases hsolves with ⟨hzero, -⟩ | ⟨hchange, -, hfirst⟩
  · norm_num at hzero
  · have hwidth : |(1 : ℚ) - 2| = 1 := by norm_num
    rw [hwidth] at hfirst
    refine ⟨hrun, hchange, hfirst, hrefused.trans ?_⟩
    norm_num

end RadixCalc
