import RadixCalc.Expr
import RadixCalc.Proofs.Pass

/-!
# Trees and their postfix order

A postfix order is read in one pass over a stack of trees.

* `foldlM_push_toPostfix`: reading the postfix order of a tree is putting the tree on the stack,
  which fails when the tree is too deep.
* `toPostfix_injective`: two trees have two postfix orders.
* `push_spells`: what the stack spells grows by each token that is read.
* `ofPostfix_eq_ok_iff`: a list is read as a tree exactly when it is the postfix order of the tree
  and the tree is not too deep.
* `ofPostfix_inverts`: the same, and the fault of the trees that are too deep.
-/

namespace RadixCalc.Expr

open Stack

variable {st st' : Stack} {e x : Expr} {t : Token} {ts : List Token} {d d' : Nat}

theorem node_of_le (h : d ≤ maxDepth) : node st e d = .ok ((e, d) :: st) := by
  unfold node
  rw [if_neg (by omega)]

theorem node_of_lt (h : maxDepth < d) : node st e d = .error (.malformed .tooDeep) := by
  unfold node
  rw [if_pos h]

theorem node_eq_ok_iff : node st e d = .ok st' ↔ d ≤ maxDepth ∧ (e, d) :: st = st' := by
  rcases Nat.lt_or_ge maxDepth d with h | h
  · rw [node_of_lt h]
    constructor
    · intro h'; cases h'
    · intro h'; omega
  · rw [node_of_le h]
    constructor
    · intro h'; cases h'; exact ⟨h, rfl⟩
    · rintro ⟨-, rfl⟩; rfl

/-! ## Reading a postfix order -/

/-- A node whose operand is too deep is too deep itself, so it does not matter which of the two is
refused. -/
theorem node_bind {st₁ : Stack} {g : Stack → Except Fault Stack} (hd : d ≤ d')
    (hg : g ((x, d) :: st) = node st₁ e d') : (node st x d >>= g) = node st₁ e d' := by
  rcases Nat.lt_or_ge maxDepth d with h | h
  · rw [node_of_lt h, node_of_lt (by omega), error_bind]
  · rw [node_of_le h, ok_bind, hg]

/-- The order of a tree with one operand, read from that of the operand. -/
theorem foldlM_push_unary {x e : Expr} {t : Token}
    (hx : ∀ st, x.toPostfix.foldlM push st = node st x x.depth)
    (ht : ∀ st, push ((x, x.depth) :: st) t = node st e (x.depth + 1)) (st : Stack) :
    (x.toPostfix ++ [t]).foldlM push st = node st e (x.depth + 1) := by
  rw [List.foldlM_append, hx]
  apply node_bind (Nat.le_succ _)
  rw [foldlM_singleton, ht]

/-- The order of a tree with two operands, read from those of the operands. -/
theorem foldlM_push_binary {x y e : Expr} {t : Token}
    (hx : ∀ st, x.toPostfix.foldlM push st = node st x x.depth)
    (hy : ∀ st, y.toPostfix.foldlM push st = node st y y.depth)
    (ht : ∀ st, push ((y, y.depth) :: (x, x.depth) :: st) t = node st e (max x.depth y.depth + 1))
    (st : Stack) :
    (x.toPostfix ++ y.toPostfix ++ [t]).foldlM push st = node st e (max x.depth y.depth + 1) := by
  rw [List.append_assoc, List.foldlM_append, hx]
  apply node_bind (Nat.le_succ_of_le (Nat.le_max_left _ y.depth))
  rw [List.foldlM_append, hy]
  apply node_bind (Nat.le_succ_of_le (Nat.le_max_right _ _))
  rw [foldlM_singleton, ht]

/-- **Reading the postfix order of a tree** is putting the tree on the stack. -/
theorem foldlM_push_toPostfix (e : Expr) (st : Stack) :
    e.toPostfix.foldlM push st = node st e e.depth := by
  induction e generalizing st with
  | word text => rfl
  | neg x ih | sqrt x ih => exact foldlM_push_unary ih (fun _ => rfl) st
  | binary o x y ihx ihy => exact foldlM_push_binary ihx ihy (fun _ => rfl) st
  | root x n ihx ihn => exact foldlM_push_binary ihx ihn (fun _ => rfl) st

/-- A tree is read from its postfix order unless it is too deep. -/
theorem ofPostfix_toPostfix (e : Expr) :
    ofPostfix e.toPostfix =
      if e.depth ≤ maxDepth then .ok e else .error (.malformed .tooDeep) := by
  unfold ofPostfix
  rw [foldlM_push_toPostfix]
  rcases Nat.lt_or_ge maxDepth e.depth with h | h
  · rw [node_of_lt h, if_neg (by omega)]
  · rw [node_of_le h, if_pos h]

/-- Postfix orders at the end of one list are those of one tree: the last token tells the root, and
then the operands stand at the end of what is left. -/
theorem eq_of_append_toPostfix {f : Expr} {us : List Token}
    (h : ts ++ e.toPostfix = us ++ f.toPostfix) : e = f ∧ ts = us := by
  induction e generalizing f ts us with
  | word text =>
    cases f with
    | word text' =>
      simp only [toPostfix, List.append_singleton_inj, Token.word.injEq] at h
      exact ⟨congrArg word h.2, h.1⟩
    | _ => simp [toPostfix, ← List.append_assoc] at h
  | neg x ih =>
    cases f with
    | neg x' =>
      simp only [toPostfix, ← List.append_assoc, List.append_singleton_inj] at h
      obtain ⟨rfl, rfl⟩ := ih h.1
      exact ⟨rfl, rfl⟩
    | _ => simp [toPostfix, ← List.append_assoc] at h
  | binary o x y ihx ihy =>
    cases f with
    | binary o' x' y' =>
      simp only [toPostfix, ← List.append_assoc, List.append_singleton_inj, Token.op.injEq] at h
      obtain ⟨hlast, rfl⟩ := h
      obtain ⟨rfl, hfirst⟩ := ihy hlast
      obtain ⟨rfl, rfl⟩ := ihx hfirst
      exact ⟨rfl, rfl⟩
    | _ => simp [toPostfix, ← List.append_assoc] at h
  | sqrt x ih =>
    cases f with
    | sqrt x' =>
      simp only [toPostfix, ← List.append_assoc, List.append_singleton_inj] at h
      obtain ⟨rfl, rfl⟩ := ih h.1
      exact ⟨rfl, rfl⟩
    | _ => simp [toPostfix, ← List.append_assoc] at h
  | root x n ihx ihn =>
    cases f with
    | root x' n' =>
      simp only [toPostfix, ← List.append_assoc, List.append_singleton_inj] at h
      obtain ⟨rfl, hfirst⟩ := ihn h.1
      obtain ⟨rfl, rfl⟩ := ihx hfirst
      exact ⟨rfl, rfl⟩
    | _ => simp [toPostfix, ← List.append_assoc] at h

/-- **A postfix order is that of one tree**, however deep. -/
theorem toPostfix_injective {f : Expr} (h : e.toPostfix = f.toPostfix) : e = f := by
  have hwhole : [] ++ e.toPostfix = [] ++ f.toPostfix := h
  exact (eq_of_append_toPostfix hwhole).1

/-- A tree that is too deep is refused wherever its postfix order stands: neither the trees before it
nor the tokens behind it matter. -/
theorem foldlM_push_of_deep (h : maxDepth < e.depth) (st : Stack) (ts : List Token) :
    (e.toPostfix ++ ts).foldlM push st = .error (.malformed .tooDeep) := by
  rw [List.foldlM_append, foldlM_push_toPostfix, node_of_lt h, error_bind]

/-! ## What a stack spells -/

/-- The postfix orders of the trees on a stack, first one first. -/
def spelled : Stack → List Token
  | [] => []
  | (e, _) :: st => spelled st ++ e.toPostfix

/-- Every tree on a stack stands beside its depth and is not too deep. -/
def Measured (st : Stack) : Prop := ∀ p ∈ st, p.2 = p.1.depth ∧ p.1.depth ≤ maxDepth

theorem measured_cons {p : Expr × Nat} :
    Measured (p :: st) ↔ (p.2 = p.1.depth ∧ p.1.depth ≤ maxDepth) ∧ Measured st :=
  List.forall_mem_cons

/-- A node keeps a stack measured if it stands beside its depth. -/
theorem node_measured (hst : Measured st) (hd : d = e.depth) (h : node st e d = .ok st') :
    Measured st' := by
  obtain ⟨hle, rfl⟩ := node_eq_ok_iff.1 h
  exact measured_cons.2 ⟨⟨hd, hd ▸ hle⟩, hst⟩

theorem unary_spells {f : Expr → Expr} (hspell : ∀ x, (f x).toPostfix = x.toPostfix ++ [t])
    (hdepth : ∀ x, (f x).depth = x.depth + 1) (hst : Measured st) (h : unary st f = .ok st') :
    spelled st' = spelled st ++ [t] ∧ Measured st' := by
  unfold unary at h
  split at h
  · rename_i x dx st
    obtain ⟨⟨hx, -⟩, hst⟩ := measured_cons.1 hst
    refine ⟨?_, node_measured hst (by rw [hdepth, ← hx]) h⟩
    obtain ⟨-, rfl⟩ := node_eq_ok_iff.1 h
    simp only [spelled, hspell, List.append_assoc]
  · cases h

theorem binary_spells {f : Expr → Expr → Expr}
    (hspell : ∀ x y, (f x y).toPostfix = x.toPostfix ++ y.toPostfix ++ [t])
    (hdepth : ∀ x y, (f x y).depth = max x.depth y.depth + 1) (hst : Measured st)
    (h : Stack.binary st f = .ok st') : spelled st' = spelled st ++ [t] ∧ Measured st' := by
  unfold Stack.binary at h
  split at h
  · rename_i y dy x dx st
    obtain ⟨⟨hy, -⟩, hst⟩ := measured_cons.1 hst
    obtain ⟨⟨hx, -⟩, hst⟩ := measured_cons.1 hst
    refine ⟨?_, node_measured hst (by rw [hdepth, ← hx, ← hy]) h⟩
    obtain ⟨-, rfl⟩ := node_eq_ok_iff.1 h
    simp only [spelled, hspell, List.append_assoc]
  · cases h

/-- **What a stack spells** grows by each token that is read. -/
theorem push_spells (hst : Measured st) (h : push st t = .ok st') :
    spelled st' = spelled st ++ [t] ∧ Measured st' := by
  cases t with
  | word text =>
    cases h
    exact ⟨rfl, measured_cons.2 ⟨⟨rfl, Nat.le_of_ble_eq_true rfl⟩, hst⟩⟩
  | call name =>
    simp only [push] at h
    split at h
    · rename_i hs; subst hs
      exact unary_spells (fun _ => rfl) (fun _ => rfl) hst h
    split at h
    · rename_i hr; subst hr
      exact binary_spells (fun _ _ => rfl) (fun _ _ => rfl) hst h
    · cases h
  | op o => exact binary_spells (fun _ _ => rfl) (fun _ _ => rfl) hst h
  | neg => exact unary_spells (fun _ => rfl) (fun _ => rfl) hst h
  | opening => cases h
  | closing => cases h
  | comma => cases h

/-- **A list is read as a tree** exactly when it is the postfix order of the tree and the tree is
not too deep. -/
theorem ofPostfix_eq_ok_iff :
    ofPostfix ts = .ok e ↔ ts = e.toPostfix ∧ e.depth ≤ maxDepth := by
  constructor
  · intro h
    unfold ofPostfix at h
    split at h
    · rename_i e' d hrun
      cases h
      -- the whole list is spelled by the one tree left
      have hinv := foldlM_invariant (P := fun ts st => spelled st = ts ∧ Measured st)
        (fun hP hs => by
          obtain ⟨h1, h2⟩ := push_spells hP.2 hs
          exact ⟨by rw [h1, hP.1], h2⟩)
        ⟨rfl, fun p hp => absurd hp List.not_mem_nil⟩ hrun
      exact ⟨hinv.1.symm, (measured_cons.1 hinv.2).1.2⟩
    · cases h
    · cases h
  · rintro ⟨rfl, h⟩
    rw [ofPostfix_toPostfix, if_pos h]

/-- **Reading inverts the postfix order.** A list is read as a tree exactly when it is the postfix
order of the tree and the tree is not too deep. A tree that is too deep is refused as such, between
any tokens before its postfix order that can be read and any tokens behind it. -/
theorem ofPostfix_inverts (ts : List Token) (e : Expr) :
    (ofPostfix ts = .ok e ↔ ts = e.toPostfix ∧ e.depth ≤ maxDepth) ∧
    (maxDepth < e.depth → ∀ (before after : List Token) (st : Stack),
      before.foldlM push [] = .ok st →
      ofPostfix (before ++ e.toPostfix ++ after) = .error (.malformed .tooDeep)) := by
  refine ⟨ofPostfix_eq_ok_iff, fun hdeep before after st hbefore => ?_⟩
  unfold ofPostfix
  rw [List.append_assoc, foldlM_append_of_ok hbefore, foldlM_push_of_deep hdeep]

/-- One under some number of negations. -/
def negations (n : Nat) : Expr :=
  n.repeat neg (word "1")

theorem depth_negations (n : Nat) : (negations n).depth = n + 1 := by
  induction n with
  | zero => rfl
  | succ n ih => exact congrArg (· + 1) ih

/-- Of two towers of negations the one as deep as is accepted is read, and the next one is refused
also as the right operand of a sum. -/
theorem ofPostfix_inverts_negations :
    ofPostfix (negations 255).toPostfix = .ok (negations 255) ∧
    maxDepth < (negations 256).depth ∧
    ofPostfix ([.word "2"] ++ (negations 256).toPostfix ++ [.op .add]) =
      .error (.malformed .tooDeep) := by
  have hlow : (negations 255).depth ≤ maxDepth := Nat.le_of_eq (depth_negations 255)
  have hdeep : maxDepth < (negations 256).depth := by
    rw [depth_negations]
    decide
  exact ⟨(ofPostfix_inverts _ _).1.2 ⟨rfl, hlow⟩, hdeep,
    (ofPostfix_inverts [] (negations 256)).2 hdeep _ _ _ rfl⟩

end RadixCalc.Expr
