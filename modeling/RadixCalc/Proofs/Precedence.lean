import RadixCalc.Proofs.Levels
import RadixCalc.Proofs.Listing

/-!
# Operators take their operands by strength

Every phrase of the grammar is put in the postfix order of its tree.

* `State.behind`: the state behind a value, of which some operators still wait.
* `Admits`, `Reaches`: the states in which a phrase of a rank may begin, and what the pass over the
  phrase comes to.
* `reaches_of_phrase`: the pass over a phrase, from any state that admits it.
* `toPostfix_of_phrase`: the postfix order of an expression, and the tree read back from it.
-/

namespace RadixCalc.Postfix

open State

variable {s s' : State} {ts us : List Token} {e f : Expr} {r : Rank} {o : Operator}
  {w p : List Token} {t : Token}

/-- How strongly a waiting token binds; one that is no operator does not bind at all. -/
def strength : Token → Nat
  | .op o => o.strength
  | .neg => negStrength
  | _ => 0

theorem strength_le (t : Token) : strength t ≤ Operator.pow.strength := by
  cases t with
  | op o => cases o <;> decide
  | neg => decide
  | _ => exact Nat.zero_le _

/-- A power binds to the right, so nothing takes its operand before it. -/
theorem precedes_pow (t : Token) : precedes .pow t = false := by
  cases t with
  | op o => cases o <;> rfl
  | _ => rfl

/-- What takes its operand before an operator that binds to the left. -/
theorem precedes_iff (ho : o ≠ .pow) : precedes o t = true ↔ o.strength ≤ strength t := by
  unfold precedes strength
  simp only [if_neg ho]
  cases t with
  | op p => simp
  | neg => simp
  | _ => cases o <;> simp [Operator.strength]

/-! ## Values on a level -/

namespace State

/-- The state behind a value: `written` are the tokens written for it, and `waiting` its operators
that still wait, each last one first. -/
def behind (s : State) (written waiting : List Token) : State :=
  ⟨written ++ s.written, { s.level with waiting := waiting ++ s.level.waiting }, s.outer, true⟩

/-- An operator between two values makes all of the first one written that binds as strongly, and
waits for the second. -/
theorem combine_behind (hp : ∀ t ∈ p, precedes o t = true)
    (hs : ∀ t, s.level.waiting.head? = some t → precedes o t = false) :
    (s.behind w p).combine o = (s.behind (p.reverse ++ w) []).await (.op o) := by
  have htake : s.level.waiting.takeWhile (precedes o) = [] := by
    cases hl : s.level.waiting with
    | nil => rfl
    | cons t l => rw [List.takeWhile_cons, hs t (by rw [hl]; rfl)]; rfl
  have hdrop : s.level.waiting.dropWhile (precedes o) = s.level.waiting := by
    have h := List.takeWhile_append_dropWhile (p := precedes o) (l := s.level.waiting)
    rwa [htake, List.nil_append] at h
  unfold combine behind await
  simp only [List.takeWhile_append_of_pos hp, List.dropWhile_append_of_pos hp, htake, hdrop,
    List.append_nil, List.append_assoc, List.nil_append]

/-- What waits for a value still waits behind it. -/
theorem behind_await (s : State) (w p : List Token) (t : Token) :
    (s.await t).behind w p = s.behind w (p ++ [t]) := by
  unfold behind await
  simp only [List.append_assoc, List.singleton_append]

theorem behind_behind (s : State) (w w' p : List Token) :
    (s.behind w []).behind w' p = s.behind (w' ++ w) p := by
  unfold behind
  simp only [List.append_assoc, List.nil_append]

/-! ## Levels inside parentheses -/

/-- What a value inside a parenthesis and its operators come to, all written. -/
theorem flushed_behind_inside (s : State) (v w p : List Token) (call : Option (String × Nat)) :
    ((s.inside v call).behind w p).flushed = (p.reverse ++ w ++ v) ++ s.written := by
  unfold flushed behind inside
  simp only [List.append_nil, List.append_assoc]

/-- A comma behind a value ends an argument. -/
theorem comma_behind_inside (s : State) (v w p : List Token) (f : String) (n : Nat) :
    step ((s.inside v (some (f, n))).behind w p) .comma =
      .ok (s.inside (p.reverse ++ w ++ v) (some (f, n + 1))) := by
  have hm := Move.comma (s := (s.inside v (some (f, n))).behind w p) rfl rfl
  rw [flushed_behind_inside] at hm
  exact hm.step_eq

/-- A group closed behind a value is a value. -/
theorem close_behind_group (s : State) (v w p : List Token) :
    step ((s.inside v none).behind w p) .closing = .ok (s.behind (p.reverse ++ w ++ v) []) := by
  have hm := Move.closeGroup (s := (s.inside v none).behind w p) rfl rfl rfl
  rw [flushed_behind_inside] at hm
  exact hm.step_eq

/-- A call closed behind its last argument is a value. -/
theorem close_behind_call {f : String} {n : Nat} (hf : arity? f = some (n + 1)) (s : State)
    (v w p : List Token) :
    step ((s.inside v (some (f, n))).behind w p) .closing =
      .ok (s.behind (.call f :: (p.reverse ++ w ++ v)) []) := by
  have hn : n + 1 = (arity? f).getD 0 := by
    rw [hf]
    rfl
  have hm := Move.closeCall (s := (s.inside v (some (f, n))).behind w p) rfl rfl hn
  rw [flushed_behind_inside] at hm
  exact hm.step_eq

end State

/-! ## Phrases -/

/-- The strength from which on a waiting token would interfere with a phrase behind it. -/
def limit : Rank → Nat
  | .sum => Operator.add.strength
  | .product => Operator.mul.strength
  | _ => Operator.pow.strength + 1

/-- How strongly the operators of a phrase bind at least that may still wait behind it. -/
def lowest : Rank → Nat
  | .sum => Operator.add.strength
  | .product => Operator.mul.strength
  | .signed | .power => negStrength
  | .atom => Operator.pow.strength + 1

/-- A phrase of the rank may begin: no value has just ended, no function waits for its parenthesis,
and what waits binds less strongly than the operators of the phrase. -/
structure Admits (r : Rank) (s : State) : Prop where
  fresh : s.valued = false
  loose : ∀ t, s.level.waiting.head? = some t → strength t < limit r
  plain : ∀ f, s.level.waiting.head? ≠ some (.call f)

/-- The pass over the tokens comes to a state behind a value. What is written and what waits of it
are the postfix order of the tree, and what waits binds as strongly as the rank says. -/
def Reaches (r : Rank) (ts : List Token) (e : Expr) (s : State) : Prop :=
  ∃ w p, ts.foldlM step s = .ok (s.behind w p) ∧ p.reverse ++ w = e.toPostfix.reverse ∧
    ∀ t ∈ p, lowest r ≤ strength t

theorem Admits.of_limit {r' : Rank} (h : Admits r s) (hr : limit r ≤ limit r') : Admits r' s :=
  ⟨h.fresh, fun t ht => Nat.lt_of_lt_of_le (h.loose t ht) hr, h.plain⟩

theorem Reaches.of_lowest {r' : Rank} (h : Reaches r ts e s) (hr : lowest r' ≤ lowest r) :
    Reaches r' ts e s := by
  obtain ⟨w, p, h1, h2, h3⟩ := h
  exact ⟨w, p, h1, h2, fun t ht => Nat.le_trans hr (h3 t ht)⟩

/-- Behind an operator or a sign any phrase may begin whose operators bind more strongly. -/
theorem admits_await (ht : strength t < limit r) (hf : ∀ f, t ≠ .call f) (s : State) :
    Admits r (s.await t) := by
  refine ⟨rfl, ?_, ?_⟩
  · intro u hu
    cases hu
    exact ht
  · intro f hu
    cases hu
    exact hf f rfl

/-- No token of an atom still waits behind it. -/
theorem reaches_atom_iff :
    Reaches .atom ts e s ↔ ts.foldlM step s = .ok (s.behind e.toPostfix.reverse []) := by
  constructor
  · rintro ⟨w, p, h1, h2, h3⟩
    cases p with
    | nil => rw [h1, ← h2]; rfl
    | cons t p =>
      have hle := h3 t List.mem_cons_self
      exact absurd hle (Nat.not_le_of_lt (Nat.lt_succ_of_le (strength_le t)))
  · intro h
    exact ⟨_, [], h, rfl, fun t ht => absurd ht List.not_mem_nil⟩

/-- **Two phrases with an operator between them** are its operands, when the operator takes the
whole first one and the second one binds more strongly. -/
theorem reaches_binary {r₁ r₂ : Rank} (h₁ : Reaches r₁ ts e s)
    (h₂ : ∀ s, Admits r₂ s → Reaches r₂ us f s)
    (hs : ∀ t, s.level.waiting.head? = some t → precedes o t = false)
    (hp : ∀ t, lowest r₁ ≤ strength t → precedes o t = true)
    (ho : o.strength < limit r₂) (hr : lowest r ≤ o.strength) (hr₂ : lowest r ≤ lowest r₂) :
    Reaches r (ts ++ .op o :: us) (.binary o e f) s := by
  obtain ⟨w, p, hrun, hw, hlow⟩ := h₁
  -- behind the operator all of the first operand is written
  have hstep : step (s.behind w p) (.op o) =
      .ok ((s.behind e.toPostfix.reverse []).await (.op o)) := by
    rw [← hw, ← combine_behind (fun t ht => hp t (hlow t ht)) hs]
    exact (Move.combine rfl).step_eq
  obtain ⟨w', p', hrun', hw', hlow'⟩ :=
    h₂ _ (admits_await (t := .op o) ho nofun (s.behind e.toPostfix.reverse []))
  refine ⟨w' ++ e.toPostfix.reverse, p' ++ [.op o], ?_, ?_, ?_⟩
  · rw [foldlM_append_of_ok hrun, List.foldlM_cons, hstep, ok_bind, hrun', behind_await,
      behind_behind]
  · show _ = (e.toPostfix ++ f.toPostfix ++ [Token.op o]).reverse
    simp only [List.reverse_append, List.append_assoc]
    rw [← hw', List.append_assoc]
  · intro t ht
    rcases List.mem_append.1 ht with ht | ht
    · exact Nat.le_trans hr₂ (hlow' t ht)
    · rw [List.mem_singleton.1 ht]
      exact hr

/-- The operators that bind to the left: one that binds as loosely as the phrases of its rank takes
such a phrase on its left. -/
theorem reaches_left {r₂ : Rank} (ho : o ≠ .pow) (hr : lowest r = o.strength)
    (hl : limit r = o.strength) (hs : Admits r s) (h₁ : Reaches r ts e s)
    (h₂ : ∀ s, Admits r₂ s → Reaches r₂ us f s) (ho₂ : o.strength < limit r₂)
    (hr₂ : lowest r ≤ lowest r₂) : Reaches r (ts ++ .op o :: us) (.binary o e f) s := by
  refine reaches_binary h₁ h₂ ?_ ?_ ho₂ (Nat.le_of_eq hr) hr₂
  · intro t ht
    have hloose := hs.loose t ht
    rw [← Bool.not_eq_true, precedes_iff ho]
    omega
  · intro t ht
    rw [precedes_iff ho]
    omega

/-- A minus sign waits for the phrase behind it. -/
theorem reaches_minus (hs : Admits .signed s) (h : ∀ s, Admits .signed s → Reaches .signed ts e s) :
    Reaches .signed (.op .sub :: ts) (.neg e) s := by
  have hstep : step s (.op .sub) = .ok (s.await .neg) := (Move.minus hs.fresh).step_eq
  obtain ⟨w, p, hrun, hw, hlow⟩ := h _ (admits_await (t := .neg) (by decide) nofun s)
  refine ⟨w, p ++ [.neg], ?_, ?_, ?_⟩
  · rw [List.foldlM_cons, hstep, ok_bind, hrun, behind_await]
  · show _ = (e.toPostfix ++ [Token.neg]).reverse
    rw [List.reverse_append, List.reverse_append, List.append_assoc, hw]
  · intro t ht
    rcases List.mem_append.1 ht with ht | ht
    · exact hlow t ht
    · rw [List.mem_singleton.1 ht]
      exact Nat.le_refl _

/-- A plus sign leaves no trace. -/
theorem reaches_plus (hs : Admits .signed s) (h : ∀ s, Admits .signed s → Reaches .signed ts e s) :
    Reaches .signed (.op .add :: ts) e s := by
  have hstep : step s (.op .add) = .ok s := (Move.plus hs.fresh).step_eq
  obtain ⟨w, p, hrun, hw⟩ := h s hs
  refine ⟨w, p, ?_, hw⟩
  rw [List.foldlM_cons, hstep, ok_bind, hrun]

/-- The arguments of a function and the value in a group are expressions of their own. -/
theorem admits_inside (s : State) (v : List Token) (call : Option (String × Nat)) :
    Admits .sum (s.inside v call) :=
  ⟨rfl, nofun, nofun⟩

theorem reaches_group (hs : Admits .atom s) (h : ∀ s, Admits .sum s → Reaches .sum ts e s) :
    Reaches .atom (.opening :: ts ++ [.closing]) e s := by
  obtain ⟨w, p, hrun, hw, -⟩ := h _ (admits_inside s [] none)
  -- what waits inside is written by the closing parenthesis, so nothing waits behind it
  rw [reaches_atom_iff, ← hw]
  have hopen := step_opening hs.fresh hs.plain
  have hclose := close_behind_group s [] w p
  rw [List.append_nil] at hclose
  rw [List.cons_append, List.foldlM_cons, hopen, ok_bind, foldlM_append_of_ok hrun,
    foldlM_singleton]
  exact hclose

/-- The pass over the name of a function and the parenthesis behind it. -/
theorem run_call_opening (hs : s.valued = false) (f : String) (us : List Token) :
    (Token.call f :: .opening :: us).foldlM step s =
      us.foldlM step (s.inside [] (some (f, 0))) := by
  have hcall : step s (.call f) = .ok (s.await (.call f)) := (Move.call hs).step_eq
  have hopen : step (s.await (.call f)) .opening = .ok (s.inside [] (some (f, 0))) := by
    rw [← opened_await_call]
    exact (Move.opening rfl).step_eq
  rw [List.foldlM_cons, hcall, ok_bind, List.foldlM_cons, hopen, ok_bind]

theorem reaches_sqrt (hs : Admits .atom s) (h : ∀ s, Admits .sum s → Reaches .sum ts e s) :
    Reaches .atom (.call "sqrt" :: .opening :: ts ++ [.closing]) (.sqrt e) s := by
  obtain ⟨w, p, hrun, hw, -⟩ := h _ (admits_inside s [] (some ("sqrt", 0)))
  rw [reaches_atom_iff]
  have hclose := close_behind_call (f := "sqrt") (n := 0) rfl s [] w p
  rw [List.cons_append, List.cons_append, run_call_opening hs.fresh, foldlM_append_of_ok hrun,
    foldlM_singleton]
  rw [List.append_nil, hw] at hclose
  rw [hclose]
  show _ = Except.ok (s.behind (e.toPostfix ++ [Token.call "sqrt"]).reverse [])
  rw [List.reverse_append]
  rfl

theorem reaches_root (hs : Admits .atom s) (h₁ : ∀ s, Admits .sum s → Reaches .sum ts e s)
    (h₂ : ∀ s, Admits .sum s → Reaches .sum us f s) :
    Reaches .atom (.call "root" :: .opening :: ts ++ .comma :: us ++ [.closing]) (.root e f) s := by
  obtain ⟨w, p, hrun, hw, -⟩ := h₁ _ (admits_inside s [] (some ("root", 0)))
  have hcomma := comma_behind_inside s [] w p "root" 0
  rw [List.append_nil, hw] at hcomma
  -- the second argument begins where the comma has written all of the first
  obtain ⟨w', p', hrun', hw', -⟩ := h₂ _ (admits_inside s e.toPostfix.reverse (some ("root", 1)))
  have hclose := close_behind_call (f := "root") (n := 1) rfl s e.toPostfix.reverse w' p'
  rw [hw'] at hclose
  rw [reaches_atom_iff]
  simp only [List.cons_append, List.append_assoc]
  rw [run_call_opening hs.fresh, foldlM_append_of_ok hrun, List.foldlM_cons, hcomma, ok_bind,
    foldlM_append_of_ok hrun', foldlM_singleton, hclose]
  show _ = Except.ok (s.behind (e.toPostfix ++ f.toPostfix ++ [Token.call "root"]).reverse [])
  simp only [List.reverse_append]
  rfl

/-! ## The pass over a phrase -/

/-- **The pass over a phrase**, from any state that admits it, comes behind its tree. -/
theorem reaches_of_phrase (h : Phrase r ts e) : ∀ s, Admits r s → Reaches r ts e s := by
  induction h with
  | ofProduct _ ih =>
    intro s hs
    exact (ih s (hs.of_limit (by decide))).of_lowest (by decide)
  | sum ho _ _ ih₁ ih₂ =>
    intro s hs
    rcases ho with rfl | rfl
    · exact reaches_left (by decide) rfl rfl hs (ih₁ s hs) ih₂ (by decide) (by decide)
    · exact reaches_left (by decide) rfl rfl hs (ih₁ s hs) ih₂ (by decide) (by decide)
  | ofSigned _ ih =>
    intro s hs
    exact (ih s (hs.of_limit (by decide))).of_lowest (by decide)
  | product ho _ _ ih₁ ih₂ =>
    intro s hs
    rcases ho with rfl | rfl
    · exact reaches_left (by decide) rfl rfl hs (ih₁ s hs) ih₂ (by decide) (by decide)
    · exact reaches_left (by decide) rfl rfl hs (ih₁ s hs) ih₂ (by decide) (by decide)
  | minus _ ih =>
    intro s hs
    exact reaches_minus hs ih
  | plus _ ih =>
    intro s hs
    exact reaches_plus hs ih
  | ofPower _ ih =>
    intro s hs
    exact (ih s (hs.of_limit (by decide))).of_lowest (by decide)
  | ofAtom _ ih =>
    intro s hs
    exact (ih s (hs.of_limit (by decide))).of_lowest (by decide)
  | power _ _ ih₁ ih₂ =>
    intro s hs
    -- nothing of an atom waits, and a power takes nothing of what waits below it
    refine reaches_binary (ih₁ s (hs.of_limit (by decide))) ih₂ (fun t _ => precedes_pow t) ?_
      (by decide) (by decide) (by decide)
    intro t ht
    exact absurd ht (Nat.not_le_of_lt (Nat.lt_succ_of_le (strength_le t)))
  | word text =>
    intro s hs
    rw [reaches_atom_iff, foldlM_singleton]
    exact (Move.word hs.fresh).step_eq
  | group _ ih =>
    intro s hs
    exact reaches_group hs ih
  | sqrt _ ih =>
    intro s hs
    exact reaches_sqrt hs ih
  | root _ _ ih₁ ih₂ =>
    intro s hs
    exact reaches_root hs ih₁ ih₂

theorem toPostfix_of_reaches (h : Reaches r ts e start) :
    toPostfix ts = (0, .ok e.toPostfix) := by
  obtain ⟨w, p, hrun, hw, -⟩ := h
  have hflush : (start.behind w p).flushed = e.toPostfix.reverse := by
    rw [← hw]
    unfold flushed behind start
    simp only [List.append_nil]
  rw [toPostfix_of_run hrun rfl rfl, hflush, List.reverse_reverse]

theorem toPostfix_eq_of_phrase (h : Phrase .sum ts e) : toPostfix ts = (0, .ok e.toPostfix) :=
  toPostfix_of_reaches (reaches_of_phrase h start ⟨rfl, nofun, nofun⟩)

/-- **The postfix order of an expression** is that of its tree, with no closing parenthesis
supplied, and the tree is read back from it unless it is too deep. -/
theorem toPostfix_of_phrase (h : Phrase .sum ts e) :
    toPostfix ts = (0, .ok e.toPostfix) ∧
      Expr.ofPostfix e.toPostfix =
        (if e.depth ≤ Expr.maxDepth then .ok e else .error (.malformed .tooDeep)) ∧
      (Malformation.tooDeep).message = "expression trop profonde" :=
  ⟨toPostfix_of_reaches (reaches_of_phrase h start ⟨rfl, nofun, nofun⟩),
    Expr.ofPostfix_toPostfix e, rfl⟩

/-- The tokens of `-2^-x*root(8,(+3))`: a sign before a power, a sign in an exponent, a call with a
group in it. -/
theorem toPostfix_of_signs_and_calls :
    Phrase .sum
        [.op .sub, .word "2", .op .pow, .op .sub, .word "x", .op .mul, .call "root", .opening,
          .word "8", .comma, .opening, .op .add, .word "3", .closing, .closing]
        (.binary .mul (.neg (.binary .pow (.word "2") (.neg (.word "x"))))
          (.root (.word "8") (.word "3"))) ∧
      toPostfix
          [.op .sub, .word "2", .op .pow, .op .sub, .word "x", .op .mul, .call "root", .opening,
            .word "8", .comma, .opening, .op .add, .word "3", .closing, .closing] =
        (0, .ok [.word "2", .word "x", .neg, .op .pow, .neg, .word "8", .word "3", .call "root",
          .op .mul]) ∧
      Expr.ofPostfix [.word "2", .word "x", .neg, .op .pow, .neg, .word "8", .word "3",
          .call "root", .op .mul] =
        .ok (.binary .mul (.neg (.binary .pow (.word "2") (.neg (.word "x"))))
          (.root (.word "8") (.word "3"))) := by
  have two : Phrase .atom [.word "2"] (.word "2") := .word "2"
  have x : Phrase .signed [.word "x"] (.word "x") := .ofPower (.ofAtom (.word "x"))
  have eight : Phrase .signed [.word "8"] (.word "8") := .ofPower (.ofAtom (.word "8"))
  have three : Phrase .signed [.op .add, .word "3"] (.word "3") :=
    .plus (.ofPower (.ofAtom (.word "3")))
  have order : Phrase .signed [.opening, .op .add, .word "3", .closing] (.word "3") :=
    .ofPower (.ofAtom (.group (.ofProduct (.ofSigned three))))
  have h := Phrase.ofProduct (.product (.inl rfl)
    (.ofSigned (.minus (.ofPower (.power two (.minus x)))))
    (.ofPower (.ofAtom (.root (.ofProduct (.ofSigned eight)) (.ofProduct (.ofSigned order))))))
  have hread := (toPostfix_of_phrase h).2.1
  rw [if_pos (by decide)] at hread
  exact ⟨h, (toPostfix_of_phrase h).1, hread⟩

end RadixCalc.Postfix
