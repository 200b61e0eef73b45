import Mathlib
import RadixCalc.Proofs.Isolation
import RadixCalc.Proofs.Line
import RadixCalc.Proofs.Powers

/-!
# Lines put together from lines

Two lines in parentheses with an operator between them have the value of the operator on their
values, and the incidents of both.

* `Yields`, `Operand`: the value of a line, and the lines that may be put in parentheses.
* `cuts_group`, `Understood.binary`, `Understood.neg`: the tokens and the tree of the line put
  together.
* `yields_binary`, `yields_neg`: its value and incidents.
* `evaluateLine_of_operands`: all operators.
-/

namespace RadixCalc

open Text Token Postfix

variable {A B line : String} {ts us : List Token} {e f : Expr} {β : Radix} {scope : Scope}
  {a b z : Rat} {i j k : List Fault} {o : Operator} {fault : Fault}

/-- The line has the value and the incidents, and leaves the scope as it is. -/
def Yields (line : String) (β : Radix) (scope : Scope) (value : Rat) (incidents : List Fault) :
    Prop :=
  ∃ workings, evaluateLine line β scope = (.ok ⟨value, incidents, workings⟩, scope)

/-- **A line that may be put in parentheses**: no assignment, not blank, with a value and no
parenthesis supplied, and with a tree that leaves room for one more node above it. -/
structure Operand (β : Radix) (scope : Scope) (text : String) (value : Rat)
    (incidents : List Fault) : Prop where
  plain : ¬ [':', '='] <:+: text.toList
  visible : ∃ c ∈ text.toList, isBlank c = false
  yields : Yields text β scope value incidents
  closed : Fault.missingClose ∉ incidents
  shallow : ∀ ts k e, Understood text ts k e → e.depth ≤ Expr.maxDepth - 1

theorem trim_ne_empty {text : String} (h : ∃ c ∈ text.toList, isBlank c = false) :
    trim text ≠ "" := by
  intro hempty
  obtain ⟨c, hc, hblank⟩ := h
  obtain ⟨b, b', hb, hb', heq⟩ := exists_blanks_trim text
  rw [heq, hempty, String.toList_empty, List.append_nil] at hc
  have : isBlank c = true := by
    rcases List.mem_append.1 hc with hc | hc
    · exact hb c hc
    · exact hb' c hc
  rw [hblank] at this
  cases this

/-- How an operand is understood and evaluated. -/
theorem Operand.understood (h : Operand β scope A a i) : ∃ ts e settings, Understood A ts 0 e ∧
    e.depth + 1 ≤ Expr.maxDepth ∧ scope.settings = .ok settings ∧
    e.eval ⟨β, scope, settings.tolerance⟩ = .ok (a, i) := by
  obtain ⟨workings, hline⟩ := h.yields
  rw [evaluateLine_of_plain h.plain] at hline
  have heval := (Prod.mk.inj hline).1
  rcases evaluate_cases A with ⟨hblank, -⟩ | ⟨ts, k, e, hu⟩ | ⟨f, -, hf⟩
  · exact absurd hblank (trim_ne_empty h.visible)
  · obtain ⟨settings, v, i', hs, hv, heq⟩ := hu.evaluate_eq_ok_iff.1 heval
    have hi := congrArg Evaluation.incidents heq
    dsimp only at hi
    -- a parenthesis supplied would be among the incidents
    have hk : k = 0 := by
      by_contra hk
      refine h.closed ?_
      rw [hi]
      exact List.mem_append_left _ (List.mem_replicate.2 ⟨hk, rfl⟩)
    subst hk
    have hdepth := h.shallow ts 0 e hu
    have hpos : 0 < Expr.maxDepth := by decide
    cases heq
    exact ⟨ts, e, settings, hu, by omega, hs, hv⟩
  · rw [hf β scope] at heval
    cases heval

/-! ## The text -/

/-- A character that is no part of `:=` keeps what stands on its two sides apart. -/
theorem plain_append_cons {c : Char} (hc : c ≠ ':' ∧ c ≠ '=') {s rest : List Char}
    (hs : ¬ [':', '='] <:+: s) (hrest : ¬ [':', '='] <:+: rest) :
    ¬ [':', '='] <:+: s ++ c :: rest := by
  induction s with
  | nil =>
    rw [List.nil_append, List.infix_cons_iff]
    rintro (⟨t, ht⟩ | h)
    · exact hc.1 (List.cons.inj ht).1.symm
    · exact hrest h
  | cons d s ih =>
    rw [List.infix_cons_iff, not_or] at hs
    rw [List.cons_append, List.infix_cons_iff]
    rintro (⟨t, ht⟩ | h)
    · cases s with
      | nil =>
        have htail := (List.cons.inj ht).2
        exact hc.2 (List.cons.inj htail).1.symm
      | cons d' s =>
        have htail := (List.cons.inj ht).2
        refine hs.1 ⟨s, ?_⟩
        rw [← (List.cons.inj ht).1, ← (List.cons.inj htail).1]
        rfl
    · exact ih hs.2 h

/-- A text in parentheses, with its tokens, in front of a text and its tokens. -/
theorem cuts_group (hA : Cuts [] (trim A).toList ts) (hn : nesting 0 ts = some 0)
    {calls : List Bool} {rest : List Char} (h : Cuts calls rest us) :
    Cuts calls ('(' :: (A.toList ++ ')' :: rest)) (.opening :: ts ++ [.closing] ++ us) := by
  obtain ⟨b, b', hb, hb', heq⟩ := exists_blanks_trim A
  obtain ⟨inner, hlen, hcut⟩ := hA.append (stops_of_blanks hb' (stops_closing rest)) hn
  -- the text leaves nothing open, so its closing parenthesis closes the one before it
  rw [List.eq_nil_of_length_eq_zero hlen] at hcut
  have hclose : Cuts (false :: calls) (b' ++ ')' :: rest) (.closing :: us) :=
    .blanks hb' (.closing h)
  have hinside := Cuts.blanks hb (@hcut (false :: calls) _ nofun hclose)
  rw [heq]
  simp only [List.append_assoc, List.cons_append, List.nil_append] at hinside ⊢
  exact .opening hinside

/-- A text in parentheses on its own. -/
theorem cuts_group_last (hA : Understood A ts 0 e) (calls : List Bool) :
    Cuts calls ('(' :: (A.toList ++ [')'])) (.opening :: ts ++ [.closing]) := by
  have hnil : Cuts calls [] [] := .nil
  have h := cuts_group (scan_eq_ok_iff.1 hA.cut) (nesting_of_toPostfix hA.order) hnil
  rwa [List.append_nil] at h

/-- Nothing is taken off a text that ends with a parenthesis. -/
theorem trim_of_closed {c : Char} {s : List Char} (hc : isBlank c = false)
    (hline : line.toList = c :: s ++ [')']) : trim line = line := by
  apply trim_eq_self
  · rw [hline]
    rintro d ⟨⟩
    exact hc
  · rw [hline, List.getLast?_concat]
    rintro d ⟨⟩
    decide

/-- The operator between the two parentheses makes one tree of the two. -/
theorem Understood.binary (hA : Understood A ts 0 e) (hB : Understood B us 0 f)
    (he : e.depth + 1 ≤ Expr.maxDepth) (hf : f.depth + 1 ≤ Expr.maxDepth)
    (hline : line.toList = '(' :: (A.toList ++ ')' :: o.sign :: '(' :: (B.toList ++ [')']))) :
    ∃ ts, Understood line ts 0 (.binary o e f) := by
  have htrim : trim line = line := by
    refine trim_of_closed (c := '(') (s := A.toList ++ ')' :: o.sign :: '(' :: B.toList)
      (by decide) ?_
    rw [hline]
    simp only [List.cons_append, List.append_assoc]
  refine ⟨(.opening :: ts ++ [.closing]) ++ .op o :: (.opening :: us ++ [.closing]), ?_, ?_, ?_⟩
  · rw [htrim, scan_eq_ok_iff, hline]
    exact cuts_group (scan_eq_ok_iff.1 hA.cut) (nesting_of_toPostfix hA.order)
      (.op o (cuts_group_last hB _))
  · have h₁ : Reaches .atom (.opening :: ts ++ [.closing]) e State.start :=
      reaches_group_of_toPostfix hA.order ⟨rfl, nofun, nofun⟩
    -- groups are atoms: no operator takes a part of one
    refine toPostfix_of_reaches (r := .sum) ?_
    refine reaches_binary h₁ (fun s hs => reaches_group_of_toPostfix hB.order hs) nofun ?_ ?_ ?_ ?_
    · intro t ht
      exact absurd ht (Nat.not_le_of_lt (Nat.lt_succ_of_le (strength_le t)))
    · cases o <;> decide
    · cases o <;> decide
    · decide
  · unfold Expr.depth
    omega

/-- The sign before the parenthesis is that of a negation. -/
theorem Understood.neg (hA : Understood A ts 0 e) (he : e.depth + 1 ≤ Expr.maxDepth)
    (hline : line.toList = '-' :: '(' :: (A.toList ++ [')'])) :
    ∃ ts, Understood line ts 0 (.neg e) := by
  have htrim : trim line = line :=
    trim_of_closed (c := '-') (s := '(' :: A.toList) (by decide) hline
  refine ⟨.op .sub :: (.opening :: ts ++ [.closing]), ?_, ?_, he⟩
  · rw [htrim, scan_eq_ok_iff, hline]
    exact .op .sub (cuts_group_last hA _)
  · refine toPostfix_of_reaches (r := .signed) (reaches_minus ⟨rfl, nofun, nofun⟩ ?_)
    intro s hs
    have hs' : Admits .atom s := hs.of_limit (by decide)
    exact (reaches_group_of_toPostfix hA.order hs').of_lowest (by decide)

/-! ## Values -/

/-- The line put together from two operands is evaluated as the operator on their values. -/
theorem evaluateLine_binary (hA : Operand β scope A a i) (hB : Operand β scope B b j)
    (hline : line.toList = '(' :: (A.toList ++ ')' :: o.sign :: '(' :: (B.toList ++ [')']))) :
    ∃ ε workings, evaluateLine line β scope =
      (o.apply ε a b >>= fun v => .ok ⟨v.1, i ++ j ++ v.2, workings⟩, scope) := by
  obtain ⟨ts, e, settings, hu, he, hs, hv⟩ := hA.understood
  obtain ⟨us, f, settings', hu', hf, hs', hv'⟩ := hB.understood
  -- both operands have been evaluated with the settings of the one scope
  rw [hs] at hs'
  cases hs'
  obtain ⟨vs, hline'⟩ := hu.binary hu' he hf hline
  have hplain : ¬ [':', '='] <:+: line.toList := by
    rw [hline]
    have hnil : ¬ [':', '='] <:+: ([] : List Char) := by decide
    have hclose := plain_append_cons (c := ')') (by decide) hB.plain hnil
    have hopen := plain_append_cons (c := '(') (by decide) hnil hclose
    have hsign := plain_append_cons (c := o.sign) (by cases o <;> decide) hnil hopen
    have hclose' := plain_append_cons (c := ')') (by decide) hA.plain hsign
    exact plain_append_cons (c := '(') (by decide) hnil hclose'
  refine ⟨settings.tolerance, ⟨joined vs, joined (Expr.binary o e f).toPostfix,
    (Expr.binary o e f).render⟩, ?_⟩
  rw [evaluateLine_of_plain hplain, hline'.evaluate_eq, hs, ok_bind, Expr.eval, hv, ok_bind]
  dsimp only
  rw [hv', ok_bind]
  dsimp only
  cases o.apply settings.tolerance a b with
  | error f => rfl
  | ok v => rfl

/-- **The value of the line put together**, whatever the tolerance of roots. -/
theorem yields_binary (hA : Operand β scope A a i) (hB : Operand β scope B b j)
    (hline : line.toList = '(' :: (A.toList ++ ')' :: o.sign :: '(' :: (B.toList ++ [')'])))
    (hz : ∀ ε, o.apply ε a b = .ok (z, k)) : Yields line β scope z (i ++ j ++ k) := by
  obtain ⟨ε, workings, h⟩ := evaluateLine_binary hA hB hline
  rw [hz ε] at h
  exact ⟨workings, h⟩

theorem fails_binary (hA : Operand β scope A a i) (hB : Operand β scope B b j)
    (hline : line.toList = '(' :: (A.toList ++ ')' :: o.sign :: '(' :: (B.toList ++ [')'])))
    (hz : ∀ ε, o.apply ε a b = .error fault) :
    evaluateLine line β scope = (.error fault, scope) := by
  obtain ⟨ε, workings, h⟩ := evaluateLine_binary hA hB hline
  rw [hz ε] at h
  exact h

theorem yields_neg (hA : Operand β scope A a i)
    (hline : line.toList = '-' :: '(' :: (A.toList ++ [')'])) : Yields line β scope (-a) i := by
  obtain ⟨ts, e, settings, hu, he, hs, hv⟩ := hA.understood
  obtain ⟨vs, hline'⟩ := hu.neg he hline
  have hplain : ¬ [':', '='] <:+: line.toList := by
    rw [hline]
    have hnil : ¬ [':', '='] <:+: ([] : List Char) := by decide
    have hclose := plain_append_cons (c := ')') (by decide) hA.plain hnil
    have hopen := plain_append_cons (c := '(') (by decide) hnil hclose
    exact plain_append_cons (c := '-') (by decide) hnil hopen
  refine ⟨⟨joined vs, joined (Expr.neg e).toPostfix, (Expr.neg e).render⟩, ?_⟩
  rw [evaluateLine_of_plain hplain, hline'.evaluate_eq, hs, ok_bind, Expr.eval, hv]
  rfl

/-! ## All operators -/

/-- **Lines are put together like values.** Operands in parentheses give the sum, the difference,
the product, the quotient, the power and the negation of their values, with the incidents of the
first and of the second; a quotient by zero and a negative power of zero are zero and the last
incident. -/
theorem evaluateLine_of_operands (hA : Operand β scope A a i) (hB : Operand β scope B b j) :
    Yields ("(" ++ A ++ ")+(" ++ B ++ ")") β scope (a + b) (i ++ j) ∧
    Yields ("(" ++ A ++ ")-(" ++ B ++ ")") β scope (a - b) (i ++ j) ∧
    Yields ("(" ++ A ++ ")*(" ++ B ++ ")") β scope (a * b) (i ++ j) ∧
    (b ≠ 0 → Yields ("(" ++ A ++ ")/(" ++ B ++ ")") β scope (a / b) (i ++ j)) ∧
    (b = 0 → Yields ("(" ++ A ++ ")/(" ++ B ++ ")") β scope 0 (i ++ j ++ [.divisionByZero])) ∧
    Yields ("-(" ++ A ++ ")") β scope (-a) i ∧
    ∀ n : ℤ, b = n →
      (PowerRefused a n → evaluateLine ("(" ++ A ++ ")^(" ++ B ++ ")") β scope =
        (.error (.exponentTooLarge (fractionText n)), scope)) ∧
      (a = 0 ∧ n < 0 →
        Yields ("(" ++ A ++ ")^(" ++ B ++ ")") β scope 0 (i ++ j ++ [.divisionByZero])) ∧
      (¬ PowerRefused a n → ¬ (a = 0 ∧ n < 0) →
        Yields ("(" ++ A ++ ")^(" ++ B ++ ")") β scope (a ^ n) (i ++ j)) := by
  have spelled (sign : String) (o : Operator) (hsign : sign.toList = [')', o.sign, '(']) :
      ("(" ++ A ++ sign ++ B ++ ")").toList =
        '(' :: (A.toList ++ ')' :: o.sign :: '(' :: (B.toList ++ [')'])) := by
    simp only [String.toList_append, hsign, List.append_assoc]
    rfl
  have without_incident {sign : String} {o : Operator} {z : Rat}
      (hsign : sign.toList = [')', o.sign, '(']) (hz : ∀ ε, o.apply ε a b = .ok (z, [])) :
      Yields ("(" ++ A ++ sign ++ B ++ ")") β scope z (i ++ j) := by
    have h := yields_binary hA hB (spelled sign o hsign) hz
    rwa [List.append_nil] at h
  refine ⟨?_, ?_, ?_, ?_, ?_, ?_, ?_⟩
  · exact without_incident (o := .add) rfl fun ε => rfl
  · exact without_incident (o := .sub) rfl fun ε => rfl
  · exact without_incident (o := .mul) rfl fun ε => rfl
  · intro hb
    refine without_incident (o := .div) rfl fun ε => ?_
    show Except.ok (if b = 0 then _ else _) = _
    rw [if_neg hb]
  · intro hb
    refine yields_binary hA hB (spelled _ .div rfl) fun ε => ?_
    show Except.ok (if b = 0 then _ else _) = _
    rw [if_pos hb]
  · refine yields_neg hA ?_
    simp only [String.toList_append]
    rfl
  · rintro n rfl
    refine ⟨?_, ?_, ?_⟩
    · intro hrefused
      exact fails_binary hA hB (spelled _ .pow rfl) (power_intCast_of_refused hrefused)
    · rintro ⟨rfl, hn⟩
      exact yields_binary hA hB (spelled _ .pow rfl) (power_zero_of_neg hn)
    · intro hrefused hzero
      exact without_incident (o := .pow) rfl (power_intCast hrefused hzero)

/-- The decimal comma of `1,5` and the quotient by zero of `1/0` in parentheses. -/
theorem evaluateLine_of_comma_and_quotient :
    Operand Radix.ten Scope.empty "1,5" (3 / 2) [] ∧
      Operand Radix.ten Scope.empty "1/0" 0 [.divisionByZero] ∧
      Yields "(1,5)-(1/0)" Radix.ten Scope.empty (3 / 2 - 0) [.divisionByZero] ∧
      Yields "(1,5)/(1/0)" Radix.ten Scope.empty 0 [.divisionByZero, .divisionByZero] ∧
      Yields "(1,5)^(1/0)" Radix.ten Scope.empty ((3 / 2) ^ (0 : ℤ)) [.divisionByZero] := by
  have hA : Operand Radix.ten Scope.empty "1,5" (3 / 2) [] := by
    have hu : Understood "1,5" [.word "1,5"] 0 (.word "1,5") :=
      ⟨by decide +kernel, by decide +kernel, by decide⟩
    refine ⟨by decide, ⟨'1', by decide, by decide⟩, ⟨⟨"1,5", "1,5", "1,5"⟩, ?_⟩, by decide, ?_⟩
    · rw [evaluateLine_of_plain (by decide)]
      refine Prod.ext ?_ rfl
      decide +kernel
    · rintro ts k e h
      rw [h.unique hu]
      decide
  have hB : Operand Radix.ten Scope.empty "1/0" 0 [.divisionByZero] := by
    have hu : Understood "1/0" [.word "1", .op .div, .word "0"] 0
        (.binary .div (.word "1") (.word "0")) :=
      ⟨by decide +kernel, by decide +kernel, by decide⟩
    refine ⟨by decide, ⟨'1', by decide, by decide⟩, ⟨⟨"1 / 0", "1 0 /", "(1/0)"⟩, ?_⟩,
      by decide, ?_⟩
    · rw [evaluateLine_of_plain (by decide)]
      refine Prod.ext ?_ rfl
      decide +kernel
    · rintro ts k e h
      rw [h.unique hu]
      decide
  have h := evaluateLine_of_operands hA hB
  refine ⟨hA, hB, h.2.1, h.2.2.2.2.1 rfl, (h.2.2.2.2.2.2 0 rfl).2.2 ?_ ?_⟩
  · unfold PowerRefused
    decide +kernel
  · rintro ⟨-, h⟩
    exact absurd h (by decide)

end RadixCalc
