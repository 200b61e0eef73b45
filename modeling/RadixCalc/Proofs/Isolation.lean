import RadixCalc.Proofs.Cutting
import RadixCalc.Proofs.Precedence

/-!
# What stands in parentheses

A text in parentheses is cut into tokens, and these are put in postfix order, as if it stood alone.

* `Stops`, `Cuts.append`: a text is cut on its own when what stands behind it takes no part in its
  last word.
* `State.within`, `Move.within`, `run_within`: a pass inside other levels.
* `Grounded`, `run_group`: the outermost level is no call, so the tokens of a group are passed over
  like an expression.
* `reaches_group_of_toPostfix`: a group of tokens with a tree is a value with that tree.
-/

namespace RadixCalc

namespace Token

open Text

variable {ts us : List Token} {calls : List Bool} {s rest w b : List Char} {inCall : Bool} {m : Nat}

/-- No word goes on in the text, and no name of a function stands before it. -/
structure Stops (rest : List Char) : Prop where
  noWord : ∀ c ∈ rest.head?, isWordChar c = false
  noCall : opens (rest.dropWhile isBlank) = false

theorem stops_nil : Stops [] := ⟨nofun, rfl⟩

theorem stops_cons {c : Char} (hblank : isBlank c = false) (hopening : c ≠ '(')
    (hword : isWordChar c = false) (rest : List Char) : Stops (c :: rest) := by
  refine ⟨?_, ?_⟩
  · rintro d ⟨⟩
    exact hword
  · rw [List.dropWhile_cons_of_neg (by rw [hblank]; decide), ← Bool.not_eq_true, opens_iff]
    rintro ⟨s, hs⟩
    exact hopening (List.cons.inj hs).1

theorem stops_closing (rest : List Char) : Stops (')' :: rest) :=
  stops_cons (by decide) (by decide) (by decide +kernel) rest

theorem stops_sign (o : Operator) (rest : List Char) : Stops (o.sign :: rest) := by
  obtain ⟨hblank, hopening, -⟩ := sign_plain o
  exact stops_cons hblank hopening (by cases o <;> decide +kernel) rest

theorem stops_of_blanks (hb : ∀ c ∈ b, isBlank c = true) (h : Stops rest) : Stops (b ++ rest) := by
  refine ⟨?_, ?_⟩
  · cases b with
    | nil => exact h.noWord
    | cons c b =>
      rintro d hd
      cases hd
      exact isWordChar_of_isBlank (hb c List.mem_cons_self)
  · rw [List.dropWhile_append_of_pos hb]
    exact h.noCall

theorem Stops.opens_eq (h : Stops rest) : opens rest = false :=
  opens_of_dropWhile h.noCall

/-- No word goes on there, neither in a call nor outside any. -/
theorem Stops.noWordIn (h : Stops rest) : ∀ c ∈ rest.head?, isWordCharIn inCall c = false := by
  intro c hc
  rw [← Bool.not_eq_true, isWordCharIn_iff, h.noWord c hc]
  rintro ⟨h, -⟩
  cases h

theorem IsRun.append (h : IsRun inCall w s) (hr : Stops rest) : IsRun inCall w (s ++ rest) := by
  refine ⟨h.ne_nil, h.all, ?_⟩
  cases s with
  | nil => exact hr.noWordIn
  | cons d s => exact h.stops

/-- Whether a word is a call is decided by the text behind it alone. -/
theorem ofWord_append (hr : Stops rest) (w s : List Char) : ofWord w (s ++ rest) = ofWord w s := by
  have h₁ : opens (s ++ rest) = opens s := by
    cases s with
    | nil => rw [List.nil_append, hr.opens_eq]; rfl
    | cons c s => rfl
  have h₂ : opens ((s ++ rest).dropWhile isBlank) = opens (s.dropWhile isBlank) := by
    rw [List.dropWhile_append]
    cases hd : s.dropWhile isBlank with
    | nil =>
      show opens (rest.dropWhile isBlank) = false
      exact hr.noCall
    | cons c s => rfl
  unfold ofWord
  rw [h₁, h₂]

/-- Parentheses around those that are open matter only when they are those of a call. -/
theorem inCall_append {outer : List Bool} (h : outer.head? ≠ some true) :
    ((calls ++ outer).head? == some true) = (calls.head? == some true) := by
  cases calls with
  | nil =>
    rw [List.nil_append, beq_eq_false_iff_ne.2 h]
    rfl
  | cons call calls => rfl

/-- **A text is cut on its own** behind any parentheses `outer` that it does not close. What stands
behind it is cut behind them and the parentheses `inner` that the text leaves open. -/
theorem Cuts.append (h : Cuts calls s ts) (hr : Stops rest) :
    ∀ {m}, nesting calls.length ts = some m → ∃ inner : List Bool, inner.length = m ∧
      ∀ {outer : List Bool} {us}, outer.head? ≠ some true → Cuts (inner ++ outer) rest us →
        Cuts (calls ++ outer) (s ++ rest) (ts ++ us) := by
  induction h with
  | @nil calls =>
    intro m hm
    exact ⟨calls, Option.some.inj hm, fun _ h => h⟩
  | blank hc _ ih =>
    intro m hm
    obtain ⟨inner, hlen, h⟩ := ih hm
    exact ⟨inner, hlen, fun ho hus => .blank hc (h ho hus)⟩
  | opening _ ih =>
    intro m hm
    obtain ⟨inner, hlen, h⟩ := ih hm
    exact ⟨inner, hlen, fun ho hus => .opening (h ho hus)⟩
  | @closing calls s ts _ ih =>
    intro m hm
    -- `nesting` is undefined where the text would close one of `outer`
    cases calls with
    | nil => cases hm
    | cons call calls =>
      obtain ⟨inner, hlen, h⟩ := ih hm
      exact ⟨inner, hlen, fun ho hus => .closing (h ho hus)⟩
  | @comma calls s ts hc _ ih =>
    intro m hm
    obtain ⟨inner, hlen, h⟩ := ih hm
    refine ⟨inner, hlen, fun ho hus => .comma ?_ (h ho hus)⟩
    rw [List.head?_append, hc]
    rfl
  | op o _ ih =>
    intro m hm
    obtain ⟨inner, hlen, h⟩ := ih hm
    exact ⟨inner, hlen, fun ho hus => .op o (h ho hus)⟩
  | @word calls w s text ts hw ht _ ih =>
    -- the word ends before `rest`, even when it is the last one
    intro m hm
    obtain ⟨inner, hlen, h⟩ := ih hm
    refine ⟨inner, hlen, ?_⟩
    intro outer us ho hus
    rw [List.append_assoc]
    refine .word ?_ ((ofWord_append hr w s).trans ht) (h ho hus)
    rw [inCall_append ho]
    exact hw.append hr
  | @call calls w b s f ts hw ht hf hb _ ih =>
    -- the parenthesis of the call stands in the text itself
    intro m hm
    obtain ⟨inner, hlen, h⟩ := ih hm
    refine ⟨inner, hlen, ?_⟩
    intro outer us ho hus
    have hrun := hw.append hr
    have hword := (ofWord_append hr w (b ++ '(' :: s)).trans ht
    simp only [List.append_assoc, List.cons_append] at hrun hword ⊢
    refine .call ?_ hword hf hb (h ho hus)
    rw [inCall_append ho]
    exact hrun

end Token

namespace Postfix

open State Token

variable {s s' t : State} {x : Token} {ts listing : List Token} {e : Expr}

/-! ## A pass inside other levels -/

namespace State

/-- The state `s` reached on a new level inside those of `t`. -/
def within (s t : State) : State :=
  ⟨s.written ++ t.written, s.level, s.outer ++ t.level :: t.outer, s.valued⟩

theorem flushed_within (s t : State) : (s.within t).flushed = s.flushed ++ t.written :=
  (List.append_assoc _ _ _).symm

theorem opened_within (s t : State) : (s.within t).opened = s.opened.within t := by
  obtain ⟨written, ⟨waiting, call⟩, outer, valued⟩ := s
  cases waiting with
  | nil => rfl
  | cons x waiting => cases x <;> rfl

theorem combine_within (s t : State) (o : Operator) :
    (s.within t).combine o = (s.combine o).within t := by
  unfold combine within
  simp only [List.append_assoc]

end State

/-- A step that succeeds is the same inside other levels. -/
theorem Move.within (h : Move s x s') (t : State) : Move (s.within t) x (s'.within t) := by
  cases h with
  | word hv => exact .word hv
  | call hv => exact .call hv
  | opening hv =>
    rw [← opened_within]
    exact .opening hv
  | comma hv hc =>
    have h := Move.comma (s := s.within t) hv hc
    rw [flushed_within] at h
    exact h
  | closeGroup hv ho hc =>
    have ho : (s.within t).outer = _ := congrArg (· ++ t.level :: t.outer) ho
    have h := Move.closeGroup (s := s.within t) hv ho hc
    rw [flushed_within] at h
    exact h
  | closeCall ho hc hn =>
    have ho : (s.within t).outer = _ := congrArg (· ++ t.level :: t.outer) ho
    have h := Move.closeCall (s := s.within t) ho hc hn
    rw [flushed_within] at h
    exact h
  | combine hv =>
    rw [← combine_within]
    exact .combine hv
  | plus hv => exact .plus hv
  | minus hv => exact .minus hv

/-- **A pass inside other levels** goes as it does outside of all. -/
theorem run_within (h : ts.foldlM step s = .ok s') (t : State) :
    ts.foldlM step (s.within t) = .ok (s'.within t) := by
  induction ts generalizing s with
  | nil =>
    cases h
    rfl
  | cons x ts ih =>
    rw [List.foldlM_cons] at h ⊢
    obtain ⟨s₁, h₁, h₂⟩ := bind_eq_ok_iff.1 h
    have hm := (step_eq_ok_iff.1 h₁).within t
    rw [step_eq_ok_iff.2 hm, ok_bind]
    exact ih h₂

/-! ## Groups -/

/-- The outermost level is no call. -/
def Grounded (s : State) : Prop :=
  s.calls.getLast? = some none

theorem grounded_of_move (h : Move s x s') (hs : Grounded s) : Grounded s' := by
  unfold Grounded State.calls at hs ⊢
  cases h with
  | opening hv =>
    unfold opened
    split <;> exact hs
  | @comma f n hv hc =>
    -- an outermost level would be no call
    cases ho : s.outer with
    | nil =>
      rw [ho, hc] at hs
      cases hs
    | cons level outer =>
      rw [ho] at hs
      exact hs
  | closeGroup hv ho hc =>
    rw [ho] at hs
    exact hs
  | closeCall ho hc hn =>
    rw [ho] at hs
    exact hs
  | _ => exact hs

theorem grounded_of_run (h : ts.foldlM step s = .ok s') (hs : Grounded s) : Grounded s' :=
  @foldlM_invariant _ _ step (fun _ s => Grounded s)
    (fun hs h => grounded_of_move (move_of_step h) hs) [] ts s s' hs h

/-- The level behind all parentheses is no call. -/
theorem Passed.ground {ts listing : List Token} {k : ℕ} (h : Passed ts k listing s s') :
    s'.level.call = none := by
  have hg := grounded_of_run h.supplied (grounded_of_run h.run rfl)
  unfold Grounded State.calls at hg
  rw [h.closed] at hg
  exact Option.some.inj hg

/-- **A group** of tokens that have a postfix order on their own, wherever it may stand. -/
theorem run_group (h : toPostfix ts = (0, .ok listing)) (hne : ts ≠ []) (hv : s.valued = false)
    (hf : ∀ f, s.level.waiting.head? ≠ some (.call f)) :
    (Token.opening :: ts ++ [Token.closing]).foldlM step s = .ok (s.behind listing.reverse []) := by
  obtain ⟨s₁, s₂, hp⟩ := exists_passed h
  -- nothing is open behind the tokens, so their closing parenthesis is that of the group
  have houter := List.eq_nil_of_length_eq_zero hp.outer
  have hsupplied : s₁ = s₂ := Except.ok.inj hp.supplied
  have hflushed : listing.reverse = s₁.flushed := by
    rw [hp.written, List.reverse_reverse, hsupplied]
  have hcall : s₁.level.call = none := hsupplied ▸ hp.ground
  have hopen : step s .opening = .ok (start.within s) := step_opening hv hf
  have hclose : step (s₁.within s) .closing = .ok (s.behind s₁.flushed []) := by
    have ho : (s₁.within s).outer = s.level :: s.outer := by
      unfold within
      rw [houter]
      rfl
    have hm := Move.closeGroup (s := s₁.within s) (hp.valued hne) ho hcall
    rw [flushed_within] at hm
    exact hm.step_eq
  rw [hflushed, List.cons_append, List.foldlM_cons, hopen, ok_bind,
    foldlM_append_of_ok (run_within hp.run s), foldlM_singleton, hclose]

/-- **A group of tokens with a tree** is a value with that tree, as in a phrase. -/
theorem reaches_group_of_toPostfix (h : toPostfix ts = (0, .ok e.toPostfix))
    (hs : Admits .atom s) : Reaches .atom (.opening :: ts ++ [.closing]) e s := by
  have hne : ts ≠ [] := by
    rintro rfl
    cases e.toPostfix_ne_nil (Except.ok.inj (Prod.mk.inj h).2).symm
  rw [reaches_atom_iff]
  exact run_group h hne hs.fresh hs.plain

end Postfix

end RadixCalc
