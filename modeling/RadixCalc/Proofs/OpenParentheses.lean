import RadixCalc.Proofs.Persistence
import RadixCalc.Proofs.Tolerance

/-!
# Parentheses left open

A line that leaves parentheses open is understood as if they were closed at its end, and the only
trace of it is an incident for each of them, before all others.

* `supply`: a text with closing parentheses behind it.
* `Understood.supply`: its tokens and its tree.
* `count_missingClose`: among the incidents of a tree there is no missing parenthesis.
* `Understood.evaluate_supply`: the value of the text.
* `evaluateLine_supply`: the same for lines, assignments among them.
-/

namespace RadixCalc

open Text Token Postfix

variable {line text name expr : String} {ts : List Token} {k : ℕ} {e : Expr} {β : Radix}
  {s s' : Scope} {ev : Evaluation} {cx : Context} {v : Rat} {i : List Fault}

/-- A text with `k` closing parentheses behind it. -/
def supply (text : String) (k : ℕ) : String :=
  text ++ String.ofList (List.replicate k ')')

theorem toList_supply (text : String) (k : ℕ) :
    (supply text k).toList = text.toList ++ List.replicate k ')' := by
  unfold supply
  rw [String.toList_append, String.toList_ofList]

theorem supply_zero (text : String) : supply text 0 = text := by
  rw [← String.toList_inj, toList_supply, List.replicate_zero, List.append_nil]

/-! ## The text -/

/-- Parentheses behind a text keep what stands at its end from being trimmed. -/
theorem trim_supply (hvisible : trim text ≠ "") (k : ℕ) : ∃ b, (∀ c ∈ b, isBlank c = true) ∧
    (trim (supply text (k + 1))).toList =
      (trim text).toList ++ (b ++ List.replicate (k + 1) ')') := by
  set rest := text.toList.dropWhile isBlank with hrest
  have htrim : (trim text).toList = dropEnd isBlank rest := by
    unfold trim
    rw [String.toList_ofList]
  have hne : rest ≠ [] := by
    intro hempty
    rw [hempty] at htrim
    exact hvisible (String.toList_inj.1 htrim)
  have hsplit : rest = dropEnd isBlank rest ++ (rest.reverse.takeWhile isBlank).reverse := by
    unfold dropEnd
    rw [← List.reverse_append, List.takeWhile_append_dropWhile, List.reverse_reverse]
  refine ⟨(rest.reverse.takeWhile isBlank).reverse, ?_, ?_⟩
  · intro c hc
    exact List.mem_takeWhile_imp (List.mem_reverse.1 hc)
  · -- nothing is dropped behind the last parenthesis, which is no blank
    have hlast : dropEnd isBlank (rest ++ List.replicate (k + 1) ')') =
        rest ++ List.replicate (k + 1) ')' := by
      unfold dropEnd
      rw [List.reverse_append, List.reverse_replicate, List.replicate_succ, List.cons_append,
        List.dropWhile_cons_of_neg (by decide), ← List.cons_append, ← List.replicate_succ,
        List.reverse_append, List.reverse_replicate, List.reverse_reverse]
    rw [htrim, ← List.append_assoc, ← hsplit, ← hlast]
    unfold trim
    rw [String.toList_ofList, toList_supply, List.dropWhile_append, ← hrest,
      if_neg (by rwa [List.isEmpty_iff])]

/-- Closing parentheses are tokens of their own, whatever they close. -/
theorem Token.cuts_closing (k : ℕ) (calls : List Bool) :
    Cuts calls (List.replicate k ')') (List.replicate k .closing) := by
  induction k generalizing calls with
  | zero => exact .nil
  | succ k ih => exact .closing (ih _)

theorem Token.stops_closings (k : ℕ) : Stops (List.replicate k ')') := by
  cases k with
  | zero => exact stops_nil
  | succ k => exact stops_closing _

/-- **The parentheses that are missing, written behind the text**, give the same tree, and none is
missing any more. -/
theorem Understood.supply (h : Understood text ts k e) :
    Understood (supply text k) (ts ++ List.replicate k .closing) 0 e := by
  refine ⟨?_, toPostfix_supplied h.order, h.shallow⟩
  cases k with
  | zero =>
    rw [supply_zero, List.replicate_zero, List.append_nil]
    exact h.cut
  | succ k =>
    obtain ⟨b, hb, htrim⟩ := trim_supply h.visible k
    obtain ⟨inner, -, hcut⟩ := (scan_eq_ok_iff.1 h.cut).append
      (stops_of_blanks hb (stops_closings (k + 1))) (nesting_of_toPostfix h.order)
    have hclosing := Cuts.blanks hb (cuts_closing (k + 1) inner)
    rw [scan_eq_ok_iff, htrim]
    exact @hcut [] _ nofun (by rwa [List.append_nil])

/-! ## The value -/

/-- A missing parenthesis is no fault of a tree. -/
theorem Context.fault?_ne_missingClose (cx : Context) (e : Expr) :
    cx.fault? e ≠ some .missingClose := by
  cases e with
  | word text =>
    show cx.wordFault? text ≠ _
    unfold wordFault?
    split
    · nofun
    · rename_i f hf
      rcases Numeral.read_error hf with ⟨c, rfl⟩ | rfl
      · split <;> nofun
      · split <;> nofun
  | binary o x y =>
    rw [fault?]
    split
    · split <;> nofun
    · nofun
  | neg | sqrt | root => nofun

/-- The incidents of a tree come behind those of the parentheses supplied, and are others. -/
theorem count_missingClose (h : e.eval cx = .ok (v, i)) :
    .missingClose ∉ i ∧
      (List.replicate k Fault.missingClose ++ i).count .missingClose = k := by
  have hnone : Fault.missingClose ∉ i := by
    rw [(Expr.recovered_of_eval h).recorded, List.mem_filterMap]
    rintro ⟨x, -, hx⟩
    exact cx.fault?_ne_missingClose x hx
  refine ⟨hnone, ?_⟩
  rw [List.count_append, List.count_replicate_self, List.count_eq_zero_of_not_mem hnone,
    Nat.add_zero]

/-! ## The workings -/

theorem Token.joined_concat (hts : ts ≠ []) (t : Token) :
    joined (ts ++ [t]) = joined ts ++ " " ++ t.text := by
  unfold joined
  rw [List.map_append, String.intercalate_append_of_ne_nil (by simpa using hts) (by simp)]
  simp

/-- The parentheses supplied are the last ones shown among the tokens. -/
theorem Token.joined_closing (hts : ts ≠ []) (k : ℕ) :
    joined (ts ++ List.replicate k .closing) =
      joined ts ++ String.join (List.replicate k " )") := by
  induction k with
  | zero => simp
  | succ k ih =>
    rw [List.replicate_succ', ← List.append_assoc, joined_concat (by simp [hts]), ih,
      List.replicate_succ', String.join_append, String.append_assoc, String.append_assoc]
    rfl

/-! ## Outcomes -/

/-- **The outcome with `k` parentheses supplied, and the one with them written**: the first reports
them before all else, and the second shows them as the last tokens. -/
structure Supplied (k : ℕ) (ev ev' : Evaluation) : Prop where
  value : ev'.value = ev.value
  incidents : ev.incidents = List.replicate k .missingClose ++ ev'.incidents
  others : .missingClose ∉ ev'.incidents
  tokens : ev'.workings.tokens = ev.workings.tokens ++ String.join (List.replicate k " )")
  listing : ev'.workings.listing = ev.workings.listing
  tree : ev'.workings.tree = ev.workings.tree

theorem evaluate_supply (h : evaluate text β s = .ok ev)
    (hk : ev.incidents.count .missingClose = k) :
    ∃ ev', evaluate (supply text k) β s = .ok ev' ∧ Supplied k ev ev' := by
  rcases evaluate_cases text with ⟨-, hblank⟩ | ⟨ts, m, e, hu⟩ | ⟨f, -, hfail⟩
  · -- a blank text reports nothing
    obtain rfl : ev = ⟨0, [], {}⟩ := Except.ok.inj (h.symm.trans (hblank β s))
    obtain rfl : k = 0 := hk.symm
    exact ⟨_, by rw [supply_zero]; exact h, rfl, rfl, nofun, rfl, rfl, rfl⟩
  · obtain ⟨settings, v, i, hs, hv, rfl⟩ := hu.evaluate_eq_ok_iff.1 h
    obtain ⟨hnone, hcount⟩ := count_missingClose (k := m) hv
    obtain rfl : m = k := hcount.symm.trans hk
    have hts : ts ≠ [] := by
      rintro rfl
      exact e.toPostfix_ne_nil (Except.ok.inj (Prod.mk.inj hu.order).2).symm
    refine ⟨_, hu.supply.evaluate_eq_ok_iff.2 ⟨settings, v, i, hs, hv, rfl⟩, ?_⟩
    exact ⟨rfl, rfl, hnone, joined_closing hts m, rfl, rfl⟩
  · rw [hfail β s] at h
    cases h

theorem Divided.supply (h : Divided line name expr) (k : ℕ) :
    Divided (supply line k) name (supply expr k) := by
  refine ⟨?_, h.first⟩
  rw [toList_supply, toList_supply, h.text, List.append_assoc]
  rfl

/-- There is no `:=` in parentheses, and none comes about behind a text. -/
theorem not_infix_supply (h : ¬ [':', '='] <:+: text.toList) (k : ℕ) :
    ¬ [':', '='] <:+: (supply text k).toList := by
  rw [toList_supply]
  cases k with
  | zero => rwa [List.replicate_zero, List.append_nil]
  | succ k =>
    refine plain_append_cons (by decide) h fun hinside => ?_
    have := List.eq_of_mem_replicate (hinside.subset List.mem_cons_self)
    revert this
    decide

/-- **Supplying parentheses equals writing them.** A line that succeeds with `k` missing parentheses
reports them first, and with `k` parentheses behind it the line has the same value, the same listing
and tree, the other incidents, and the same scope behind it. -/
theorem evaluateLine_supply (h : evaluateLine line β s = (.ok ev, s'))
    (hk : ev.incidents.count .missingClose = k) :
    ∃ ev', evaluateLine (supply line k) β s = (.ok ev', s') ∧ Supplied k ev ev' := by
  cases hsplit : splitAssignment? line with
  | none =>
    have hplain := splitOnto_eq_none_iff.1 (Option.map_eq_none_iff.1 hsplit)
    rw [evaluateLine_of_plain hplain] at h
    rw [evaluateLine_of_plain (not_infix_supply hplain k)]
    obtain ⟨hev, rfl⟩ := Prod.mk.inj h
    obtain ⟨ev', hev', hsupplied⟩ := evaluate_supply hev hk
    exact ⟨ev', by rw [hev'], hsupplied⟩
  | some sides =>
    -- the first `:=` stands where it stood, so only the expression is longer
    obtain ⟨name, expr⟩ := sides
    have hdivided := (splitAssignment?_eq_some_iff.1 hsplit).supply k
    rw [evaluateLine_of_split hsplit] at h
    rw [evaluateLine_of_split (splitAssignment?_eq_some_iff.2 hdivided)]
    obtain ⟨hname, ev₀, hev, hassign, rfl⟩ := evaluateAssignment_eq_ok_iff.1 h
    obtain ⟨ev', hev', hsupplied⟩ := evaluate_supply hev hk
    refine ⟨_, evaluateAssignment_eq_ok_iff.2 ⟨hname, ev', hev', ?_, rfl⟩, ?_⟩
    · rw [hsupplied.value]
      exact hassign
    · exact { hsupplied with value := by rw [hsupplied.value] }

/-- A call and a group left open behind a blank, in an assignment: the two parentheses are reported
before the quotient by zero, and only that is left when they are written. -/
theorem evaluateLine_supply_call :
    ∃ ev ev', (evaluateLine "x := root(2+1/0, (1 " Radix.ten Scope.initial).1 = .ok ev ∧
      ev.incidents = [.missingClose, .missingClose, .divisionByZero] ∧
      supply "x := root(2+1/0, (1 " 2 = "x := root(2+1/0, (1 ))" ∧
      (evaluateLine "x := root(2+1/0, (1 ))" Radix.ten Scope.initial).1 = .ok ev' ∧
      Supplied 2 ev ev' ∧ ev'.incidents = [.divisionByZero] := by
  set ev : Evaluation := ⟨2, [.missingClose, .missingClose, .divisionByZero],
    ⟨"root ( 2 + 1 / 0 , ( 1", "2 1 0 / + 1 root", "root((2+(1/0)), 1)"⟩⟩ with hev
  have hline : (evaluateLine "x := root(2+1/0, (1 " Radix.ten Scope.initial).1 = .ok ev := by
    decide +kernel
  have htext : supply "x := root(2+1/0, (1 " 2 = "x := root(2+1/0, (1 ))" := by decide +kernel
  obtain ⟨ev', hline', hsupplied⟩ := evaluateLine_supply (k := 2) (Prod.ext hline rfl) rfl
  rw [htext] at hline'
  refine ⟨ev, ev', hline, rfl, htext, (Prod.ext_iff.1 hline').1, hsupplied, ?_⟩
  have hincidents : List.replicate 2 Fault.missingClose ++ [.divisionByZero] =
      List.replicate 2 .missingClose ++ ev'.incidents := by
    rw [← hsupplied.incidents, hev]
    rfl
  exact (List.append_cancel_left hincidents).symm

end RadixCalc
