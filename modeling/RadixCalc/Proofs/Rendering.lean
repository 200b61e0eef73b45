import RadixCalc.Proofs.Pasting

/-!
# Reading what is shown of a tree

A tree is shown with parentheses around every operator, so that its text can be read again. Two kinds
of trees are not read back as themselves: a square root is shown by a sign that is in no token, and a
negation as the base of a power is shown without parentheses of its own, so that it is read as the
negation of the power.

* `Expr.nodes`, `Expr.Plain`, `Expr.Shown`: a tree and all trees in it, words that stand out in its
  text, and trees that are shown by the signs of tokens alone.
* `Expr.tokens`, `Expr.cuts_render`: the tokens of what is shown of a tree.
* `Expr.regrouped`, `Expr.phrase_tokens`: the tree of these tokens.
* `Expr.regrouped_eq_iff`: when this is the tree that was shown.
* `Expr.reads_render_iff`: which trees are read back.
-/

namespace RadixCalc.Expr

open Text Token Postfix

variable {e x y z : Expr} {s : List Char} {ts : List Token} {calls : List Bool} {c : Char}

/-- A tree and all trees in it. -/
def nodes : Expr → List Expr
  | word text => [word text]
  | neg x => neg x :: x.nodes
  | binary o x y => binary o x y :: (x.nodes ++ y.nodes)
  | sqrt x => sqrt x :: x.nodes
  | root x n => root x n :: (x.nodes ++ n.nodes)

/-- **The words of a tree stand out in its text**: none is empty, and all are made of the characters
of words but for the comma, which divides the arguments of a root. -/
def Plain (e : Expr) : Prop :=
  ∀ text, word text ∈ e.nodes → text ≠ "" ∧ ∀ c ∈ text.toList, isWordChar c = true ∧ c ≠ ','

/-- **A tree that is shown by the signs of tokens alone**: its words stand out, and it has no square
root. -/
structure Shown (e : Expr) : Prop where
  plain : e.Plain
  noSqrt : ∀ x, sqrt x ∉ e.nodes

theorem Shown.mono (h : e.Shown) (hx : x.nodes ⊆ e.nodes) : x.Shown where
  plain text htext := h.plain text (hx htext)
  noSqrt y hy := h.noSqrt y (hx hy)

theorem Shown.neg (h : (neg x).Shown) : x.Shown :=
  h.mono (List.subset_cons_self _ _)

theorem Shown.binary {o : Operator} (h : (binary o x y).Shown) : x.Shown ∧ y.Shown :=
  ⟨h.mono (List.subset_cons_of_subset _ (List.subset_append_left _ _)),
    h.mono (List.subset_cons_of_subset _ (List.subset_append_right _ _))⟩

theorem Shown.root (h : (root x y).Shown) : x.Shown ∧ y.Shown :=
  ⟨h.mono (List.subset_cons_of_subset _ (List.subset_append_left _ _)),
    h.mono (List.subset_cons_of_subset _ (List.subset_append_right _ _))⟩

/-! ## What follows a tree -/

/-- What follows a tree that is shown: no word goes on there, and no parenthesis comes next. -/
structure Follows (calls : List Bool) (s : List Char) : Prop where
  stops : ∀ c ∈ s.head?, isWordCharIn (calls.head? == some true) c = false
  noCall : opens (s.dropWhile isBlank) = false

/-- What ends a word anywhere ends it in a call. -/
theorem follows_of_stops (h : Stops s) (calls : List Bool) : Follows calls s :=
  ⟨h.noWordIn, h.noCall⟩

theorem follows_closing (calls : List Bool) (s : List Char) : Follows calls (')' :: s) :=
  follows_of_stops (stops_closing s) calls

/-- In a call a comma ends the word before it. -/
theorem follows_comma (calls : List Bool) (s : List Char) : Follows (true :: calls) (',' :: s) := by
  refine ⟨?_, ?_⟩
  · rintro c ⟨⟩
    show isWordCharIn true ',' = false
    decide +kernel
  · rw [List.dropWhile_cons_of_neg (by decide)]
    rfl

/-! ## Tokens -/

/-- The tokens of what is shown of a tree. -/
def tokens : Expr → List Token
  | word text => [.word text]
  | neg x => .op .sub :: .opening :: x.tokens ++ [.closing]
  | binary o x y => .opening :: (x.tokens ++ .op o :: y.tokens) ++ [.closing]
  | sqrt x => .call "sqrt" :: .opening :: x.tokens ++ [.closing]
  | root x n => .call "root" :: .opening :: x.tokens ++ .comma :: n.tokens ++ [.closing]

/-- A word that stands out is cut off as a whole. -/
theorem cuts_plain {text : String} (hword : (word text).Plain) (hs : Follows calls s)
    (h : Cuts calls s ts) : Cuts calls (text.toList ++ s) (.word text :: ts) := by
  obtain ⟨hne, hchars⟩ := hword text List.mem_cons_self
  refine .word ⟨mt String.toList_eq_nil_iff.1 hne, ?_, hs.stops⟩ ?_ h
  · intro c hc
    obtain ⟨hc, hcomma⟩ := hchars c hc
    exact isWordCharIn_iff.2 ⟨hc, fun h => hcomma h.2⟩
  · rw [ofWord_of_noCall hs.noCall, String.ofList_toList]

/-- The name of the root is cut off as a call, with the parenthesis behind it. -/
theorem cuts_root (h : Cuts (true :: calls) s ts) :
    Cuts calls ("root(".toList ++ s) (.call "root" :: .opening :: ts) := by
  have hword := isWordCharIn_of_name (f := "root") rfl (calls.head? == some true)
  have hrun : IsRun (calls.head? == some true) "root".toList ([] ++ '(' :: s) := by
    refine ⟨by decide, hword, ?_⟩
    rintro c ⟨⟩
    cases calls.head? == some true <;> decide +kernel
  exact .call hrun (ofWord_name rfl rfl) rfl nofun h

/-- A closing parenthesis leaves the innermost of those that are open, be it of a call or not. -/
theorem cuts_close (call : Bool) (h : Cuts calls s ts) :
    Cuts (call :: calls) (')' :: s) (.closing :: ts) :=
  .closing h

/-- **What is shown of a tree** is cut into its tokens, behind any parentheses and in front of
anything that follows a tree. -/
theorem cuts_render (he : e.Shown) (hs : Follows calls s) (h : Cuts calls s ts) :
    Cuts calls (e.render.toList ++ s) (e.tokens ++ ts) := by
  induction e generalizing calls s ts with
  | word text => exact cuts_plain he.plain hs h
  | neg x ih =>
    have hinner := ih he.neg (follows_closing _ s) (cuts_close false h)
    have hcuts := Cuts.op .sub (.opening hinner)
    simpa [render, tokens, Operator.sign] using hcuts
  | binary o x y ihx ihy =>
    obtain ⟨hx, hy⟩ := he.binary
    have hright := ihy hy (follows_closing _ s) (cuts_close false h)
    have hleft := ihx hx (follows_of_stops (stops_sign o _) _) (.op o hright)
    simpa [render, tokens] using Cuts.opening hleft
  | sqrt x => exact absurd List.mem_cons_self (he.noSqrt x)
  | root x n ihx ihn =>
    obtain ⟨hx, hn⟩ := he.root
    have horder := ihn hn (follows_closing _ s) (cuts_close true h)
    have hradicand := ihx hx (follows_comma calls _) (.comma rfl (.blank (c := ' ') rfl horder))
    simpa [render, tokens] using cuts_root hradicand

/-- The sign of a square root is shown of it wherever it stands in the tree. -/
theorem sqrt_mem_render (h : sqrt x ∈ e.nodes) : '√' ∈ e.render.toList := by
  induction e with
  | word text => simp [nodes] at h
  | neg y ih =>
    simp only [nodes, List.mem_cons, reduceCtorEq, false_or] at h
    simp [render, ih h]
  | binary o y z ihy ihz =>
    simp only [nodes, List.mem_cons, List.mem_append, reduceCtorEq, false_or] at h
    rcases h with h | h
    · simp [render, ihy h]
    · simp [render, ihz h]
  | sqrt y => simp [render]
  | root y z ihy ihz =>
    simp only [nodes, List.mem_cons, List.mem_append, reduceCtorEq, false_or] at h
    rcases h with h | h
    · simp [render, ihy h]
    · simp [render, ihz h]

/-- A text with the sign of a square root cannot be cut. -/
theorem sqrt_notMem_of_scan (h : scan e.render = .ok ts) (x : Expr) : sqrt x ∉ e.nodes := by
  intro hx
  refine (scan_eq_ok_iff.1 h).notMem ?_ ?_ ?_ ?_ ?_ (sqrt_mem_render hx)
  · decide
  · decide +kernel
  · decide
  · decide
  · intro o
    cases o <;> decide

/-- **The tokens of what is shown of a tree**, if it has no square root. -/
theorem scan_render (he : e.Shown) : scan e.render = .ok e.tokens := by
  rw [scan_eq_ok_iff, ← List.append_nil e.render.toList, ← List.append_nil e.tokens]
  exact cuts_render he (follows_of_stops stops_nil _) .nil

/-! ## The tree of the tokens -/

/-- The tree as it is read back: a power of a negation is shown like the negation of a power. -/
def regrouped : Expr → Expr
  | word text => word text
  | neg x => neg x.regrouped
  | binary .pow (neg x) y => neg (binary .pow x.regrouped y.regrouped)
  | binary o x y => binary o x.regrouped y.regrouped
  | sqrt x => sqrt x.regrouped
  | root x n => root x.regrouped n.regrouped

/-- The rank of what is shown of a tree: all but a negation stands in parentheses of its own. -/
def rank : Expr → Rank
  | neg _ => .signed
  | _ => .atom

theorem signed_of_rank (h : Phrase e.rank ts x) : Phrase .signed ts x := by
  cases e with
  | neg e => exact h
  | _ => exact .ofPower (.ofAtom h)

theorem sum_of_rank (h : Phrase e.rank ts x) : Phrase .sum ts x :=
  .ofProduct (.ofSigned (signed_of_rank h))

/-- **The tokens of a tree are a phrase of the tree that is read back.** -/
theorem phrase_tokens (e : Expr) : Phrase e.rank e.tokens e.regrouped := by
  fun_induction regrouped e with
  | case1 text => exact .word text
  | case2 x ih => exact .minus (.ofPower (.ofAtom (.group (sum_of_rank ih))))
  | case3 x y ihx ihy =>
    -- the sign stands in front of the whole power
    have hpower := Phrase.power (.group (sum_of_rank ihx)) (signed_of_rank ihy)
    exact .group (.ofProduct (.ofSigned (.minus (.ofPower hpower))))
  | case4 o x y hbase ihx ihy =>
    cases o with
    | add => exact .group (.sum (.inl rfl) (sum_of_rank ihx) (.ofSigned (signed_of_rank ihy)))
    | sub => exact .group (.sum (.inr rfl) (sum_of_rank ihx) (.ofSigned (signed_of_rank ihy)))
    | mul =>
      exact .group (.ofProduct (.product (.inl rfl) (.ofSigned (signed_of_rank ihx))
        (signed_of_rank ihy)))
    | div =>
      exact .group (.ofProduct (.product (.inr rfl) (.ofSigned (signed_of_rank ihx))
        (signed_of_rank ihy)))
    | pow =>
      have hatom : x.rank = .atom := by
        cases x with
        | neg x => exact absurd rfl (hbase x rfl)
        | _ => rfl
      rw [hatom] at ihx
      exact .group (.ofProduct (.ofSigned (.ofPower (.power ihx (signed_of_rank ihy)))))
  | case5 x ih => exact .sqrt (sum_of_rank ih)
  | case6 x n ihx ihn => exact .root (sum_of_rank ihx) (sum_of_rank ihn)

/-- A tree is read back as itself when no negation is the base of a power. -/
theorem regrouped_eq_iff : e.regrouped = e ↔ ∀ x y, binary .pow (neg x) y ∉ e.nodes := by
  fun_induction regrouped e with
  | case1 text => simp [nodes]
  | case2 x ih => simp [nodes, ih]
  | case3 x y => exact iff_of_false nofun fun h => h x y List.mem_cons_self
  | case4 o x y hbase ihx ihy =>
    have hself (a b : Expr) : binary .pow (neg a) b ≠ binary o x y := by
      rintro ⟨⟩
      exact hbase a rfl rfl
    simp [nodes, ihx, ihy, hself, forall_and]
  | case5 x ih => simp [nodes, ih]
  | case6 x n ihx ihn => simp [nodes, ihx, ihn, forall_and]

/-- **A tree is read back from what is shown of it**, with no parenthesis supplied, exactly when it
has no square root and no negation is the base of a power. Its words have to stand out in the text,
and it may not be too deep. -/
theorem reads_render_iff (hword : e.Plain) (hdepth : e.depth ≤ maxDepth) :
    (∃ ts us, scan e.render = .ok ts ∧ RadixCalc.toPostfix ts = (0, .ok us) ∧
        ofPostfix us = .ok e) ↔
      (∀ x, sqrt x ∉ e.nodes) ∧ ∀ x y, binary .pow (neg x) y ∉ e.nodes := by
  have horder : RadixCalc.toPostfix e.tokens = (0, .ok e.regrouped.toPostfix) :=
    toPostfix_eq_of_phrase (sum_of_rank (phrase_tokens e))
  constructor
  · rintro ⟨ts, us, hscan, hpostfix, hread⟩
    have hsqrt := sqrt_notMem_of_scan hscan
    rw [scan_render ⟨hword, hsqrt⟩] at hscan
    cases hscan
    rw [horder] at hpostfix
    cases hpostfix
    exact ⟨hsqrt, regrouped_eq_iff.1 (toPostfix_injective (ofPostfix_eq_ok_iff.1 hread).1)⟩
  · rintro ⟨hsqrt, hbase⟩
    rw [regrouped_eq_iff.2 hbase] at horder
    exact ⟨_, _, scan_render ⟨hword, hsqrt⟩, horder, ofPostfix_eq_ok_iff.2 ⟨rfl, hdepth⟩⟩

/-- A root with a product, a power and signs in it, one of its words being the name of the root. -/
theorem reads_render_root :
    (root (binary .mul (neg (word "x")) (binary .pow (word "1.5") (neg (word "root"))))
        (neg (neg (word "$k")))).render = "root((-(x)*(1.5^-(root))), -(-($k)))" ∧
      ∃ ts us, scan "root((-(x)*(1.5^-(root))), -(-($k)))" = .ok ts ∧
        RadixCalc.toPostfix ts = (0, .ok us) ∧ ofPostfix us =
          .ok (root (binary .mul (neg (word "x")) (binary .pow (word "1.5") (neg (word "root"))))
            (neg (neg (word "$k")))) := by
  have hrender : (root (binary .mul (neg (word "x")) (binary .pow (word "1.5")
      (neg (word "root")))) (neg (neg (word "$k")))).render =
        "root((-(x)*(1.5^-(root))), -(-($k)))" := by decide +kernel
  refine ⟨hrender, hrender ▸ (reads_render_iff ?_ (by decide)).2 ⟨?_, ?_⟩⟩
  · intro text htext
    simp only [nodes, List.mem_cons, List.mem_append, reduceCtorEq, word.injEq, List.not_mem_nil,
      false_or, or_false] at htext
    simp only [← Bool.and_eq_true, ← bne_iff_ne, ← List.all_eq_true]
    rcases htext with (rfl | rfl | rfl) | rfl <;> decide +kernel
  · simp [nodes]
  · simp [nodes]

/-- The negation of two, squared, is read back as the negation of a square. -/
example : (regrouped (binary .pow (neg (word "2")) (word "2"))).render = "-((2^2))" := by decide

end RadixCalc.Expr
