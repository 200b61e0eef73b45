import RadixCalc.Proofs.Assignment
import RadixCalc.Proofs.Words

/-!
# Bindings persist

An assignment that succeeds binds the name before its first `:=` and nothing else. The name keeps
its value through all lines that do not assign it again, and is read as that value in every radix,
even where its characters are digits.

* `Divided`, `splitAssignment?_eq_some_iff`: where an assignment is divided.
* `isWordChar_of_isName`, `yields_name`: a name is cut off as one word, and its value comes first.
* `Assigns`, `Later`: the lines that assign a name, and the scopes that are reached by other lines.
* `Later.get?_eq`: the name keeps its value.
* `evaluateLine_binds`: all of it together.
-/

namespace RadixCalc

open Text Token

variable {line name left expr : String} {β γ : Radix} {s s' : Scope} {x : Rat} {c : Char}

/-! ## The two sides of an assignment -/

/-- The first `:=` of the line stands between the two texts. -/
structure Divided (line left expr : String) : Prop where
  text : line.toList = left.toList ++ ':' :: '=' :: expr.toList
  first : ¬ [':', '='] <:+: left.toList

/-- In front of the first `:=` stands what was passed over before, and a text without any. -/
theorem splitOnto_eq_some_iff {done cs l r : List Char} : splitOnto done cs = some (l, r) ↔
    ∃ m, l = done.reverse ++ m ∧ cs = m ++ ':' :: '=' :: r ∧ ¬ [':', '='] <:+: m := by
  fun_induction splitOnto done cs with
  | case1 done rest =>
    constructor
    · rintro ⟨⟩
      exact ⟨[], by simp, rfl, by simp⟩
    · rintro ⟨m, rfl, hcs, hm⟩
      cases m with
      | nil => cases hcs; simp
      | cons c m =>
        obtain ⟨rfl, hrest⟩ := List.cons.inj hcs
        cases m with
        | nil => cases (List.cons.inj hrest).1
        | cons c m =>
          obtain ⟨rfl, -⟩ := List.cons.inj hrest
          exact absurd (List.IsPrefix.isInfix ⟨m, rfl⟩) hm
  | case2 done c rest hne ih =>
    rw [ih]
    constructor
    · rintro ⟨m, rfl, rfl, hm⟩
      refine ⟨c :: m, by simp, rfl, ?_⟩
      rw [List.infix_cons_iff]
      rintro (⟨t, ht⟩ | h)
      · -- the colon would be divided from what follows it
        obtain ⟨hcolon, ht⟩ := List.cons.inj ht
        cases m with
        | nil => cases ht
        | cons d m =>
          obtain ⟨rfl, -⟩ := List.cons.inj ht
          exact hne (m ++ ':' :: '=' :: r) hcolon.symm rfl
      · exact hm h
    · rintro ⟨m, rfl, hcs, hm⟩
      cases m with
      | nil =>
        obtain ⟨rfl, hrest⟩ := List.cons.inj hcs
        exact absurd hrest (hne r rfl)
      | cons d m =>
        obtain ⟨rfl, rfl⟩ := List.cons.inj hcs
        exact ⟨m, by simp, rfl, fun h => hm (List.infix_cons h)⟩
  | case3 done =>
    constructor
    · rintro ⟨⟩
    · rintro ⟨m, -, hcs, -⟩
      cases m <;> cases hcs

theorem splitAssignment?_eq_some_iff :
    splitAssignment? line = some (left, expr) ↔ Divided line left expr := by
  unfold splitAssignment?
  rw [Option.map_eq_some_iff]
  constructor
  · rintro ⟨⟨l, r⟩, hsplit, hsides⟩
    obtain ⟨m, rfl, htext, hfirst⟩ := splitOnto_eq_some_iff.1 hsplit
    cases hsides
    refine ⟨?_, ?_⟩
    · rw [String.toList_ofList, String.toList_ofList]
      exact htext
    · rw [String.toList_ofList]
      exact hfirst
  · intro h
    refine ⟨_, splitOnto_eq_some_iff.2 ⟨left.toList, rfl, h.text, h.first⟩, ?_⟩
    dsimp only [List.reverse_nil, List.nil_append]
    rw [String.ofList_toList, String.ofList_toList]

theorem exists_divided (h : [':', '='] <:+: line.toList) : ∃ left expr, Divided line left expr := by
  cases hsplit : splitAssignment? line with
  | none =>
    unfold splitAssignment? at hsplit
    exact absurd h (splitOnto_eq_none_iff.1 (Option.map_eq_none_iff.1 hsplit))
  | some sides => exact ⟨sides.1, sides.2, splitAssignment?_eq_some_iff.1 hsplit⟩

/-! ## Names as words -/

theorem isWordChar_of_isNameStart (h : isNameStart c = true) : isWordChar c = true := by
  unfold isNameStart at h
  unfold isWordChar isNameChar isAlphanumeric
  simp only [Bool.or_eq_true] at h ⊢
  tauto

/-- **A name is a word**: its characters are those of words. -/
theorem isWordChar_of_isName (h : isName name = true) :
    name.toList ≠ [] ∧ ∀ c ∈ name.toList, isWordChar c = true := by
  unfold isName at h
  cases htext : name.toList with
  | nil => rw [htext] at h; cases h
  | cons c cs =>
    rw [htext] at h
    obtain ⟨hstart, hrest⟩ := Bool.and_eq_true_iff.1 h
    refine ⟨nofun, List.forall_mem_cons.2 ⟨isWordChar_of_isNameStart hstart, fun d hd => ?_⟩⟩
    have hname : isNameChar d = true := List.all_eq_true.1 hrest d hd
    unfold isWordChar
    rw [hname, Bool.true_or]

/-- A bound name is read as its value, before it is read as digits. -/
theorem Numeral.read_of_get? (hname : isName name = true) (h : s.get? name = some x) (β : Radix) :
    read name β s = .ok x := by
  obtain ⟨hne, hword⟩ := isWordChar_of_isName hname
  have hread := (read_word hne hword β s).1 x
  rw [String.ofList_toList] at hread
  exact hread h

/-- **The line that is a bound name** has its value, in every radix. -/
theorem yields_name (hname : isName name = true) (h : s.get? name = some x)
    (hs : ∃ settings, s.settings = .ok settings) (β : Radix) : Yields name β s x [] := by
  obtain ⟨hne, hword⟩ := isWordChar_of_isName hname
  obtain ⟨settings, hs⟩ := hs
  have hread := Numeral.read_of_get? hname h β
  rw [← String.ofList_toList (s := name)] at hread ⊢
  exact yields_signedWord false hne hword hs hread

/-! ## Later lines -/

/-- The line succeeds, and the name stands before its first `:=`. -/
def Assigns (line : String) (β : Radix) (s : Scope) (name : String) : Prop :=
  (∃ ev, (evaluateLine line β s).1 = .ok ev) ∧ ∃ left expr, Divided line left expr ∧ trim left = name

/-- The scopes behind any lines, in any radices, none of which assigns the name. -/
inductive Later (name : String) (s : Scope) : Scope → Prop
  | refl : Later name s s
  | line {t : Scope} (h : Later name s t) (line : String) (β : Radix)
      (hline : ¬ Assigns line β t name) : Later name s (evaluateLine line β t).2

theorem Binds.divided (h : Binds line s name x) :
    ∃ left expr, Divided line left expr ∧ trim left = name := by
  obtain ⟨left, expr, -, hsplit, hleft, -⟩ := h.stored
  exact ⟨left, expr, splitAssignment?_eq_some_iff.1 hsplit, hleft⟩

/-- A line that does not assign the name leaves it as it is. -/
theorem get?_evaluateLine (hline : ¬ Assigns line β s name) :
    (evaluateLine line β s).2.get? name = s.get? name := by
  rcases evaluateLine_cases line β s with ⟨f, h⟩ | ⟨-, ev, h⟩ | ⟨other, value, h⟩
  · rw [h]
  · rw [h]
  · obtain ⟨ev, -, heval⟩ := h.evaluateLine_eq β
    have hother : other ≠ name := by
      rintro rfl
      exact hline ⟨⟨ev, by rw [heval]⟩, h.divided⟩
    rw [heval, Scope.get?_define, if_neg hother]

/-- **A name keeps its value** through lines that do not assign it. -/
theorem Later.get?_eq (h : Later name s s') : s'.get? name = s.get? name := by
  induction h with
  | refl => rfl
  | line _ line β hline ih => rw [get?_evaluateLine hline, ih]

/-! ## Assignments -/

/-- An assignment that succeeds has bound what stands before its first `:=`. -/
theorem binds_of_divided {ev : Evaluation} (h : Divided line left expr)
    (hok : (evaluateLine line β s).1 = .ok ev) : Binds line s (trim left) ev.value := by
  have hsplit := splitAssignment?_eq_some_iff.2 h
  rcases evaluateLine_cases line β s with ⟨f, hline⟩ | ⟨hplain, -⟩ | ⟨name, value, hbinds⟩
  · rw [hline] at hok
    cases hok
  · rw [hsplit] at hplain
    cases hplain
  · obtain ⟨ev', rfl, hline⟩ := hbinds.evaluateLine_eq β
    rw [hline] at hok
    cases hok
    obtain ⟨left', expr', -, hsplit', rfl, -⟩ := hbinds.stored
    rw [hsplit] at hsplit'
    cases hsplit'
    exact hbinds

/-- **What a line does to the scope, and for how long.** A line that fails or has no `:=` leaves the
scope as it was. A line with `:=` that succeeds binds the name before the first one to its value,
and nothing else. Behind any later lines that do not assign it again, the name on a line of its own
has that value in every radix, with no incident. -/
theorem evaluateLine_binds (line : String) (β : Radix) (s : Scope) :
    (∀ f, (evaluateLine line β s).1 = .error f → (evaluateLine line β s).2 = s) ∧
    (¬ [':', '='] <:+: line.toList → (evaluateLine line β s).2 = s) ∧
    ([':', '='] <:+: line.toList → ∃ left expr, Divided line left expr ∧
      ∀ ev, (evaluateLine line β s).1 = .ok ev →
        isName (trim left) = true ∧
        (evaluateLine line β s).2.get? (trim left) = some ev.value ∧
        (∀ other, other ≠ trim left → (evaluateLine line β s).2.get? other = s.get? other) ∧
        ∀ s', Later (trim left) (evaluateLine line β s).2 s' →
          (∃ settings, s'.settings = .ok settings) → ∀ γ, Yields (trim left) γ s' ev.value []) := by
  refine ⟨fun f hf => ?_, fun hplain => ?_, fun hassign => ?_⟩
  · rcases evaluateLine_cases line β s with ⟨_, h⟩ | ⟨-, _, h⟩ | ⟨name, value, h⟩
    · rw [h]
    · rw [h]
    · obtain ⟨ev, -, h⟩ := h.evaluateLine_eq β
      rw [h] at hf
      cases hf
  · rw [evaluateLine_of_plain hplain]
  · obtain ⟨left, expr, hdivided⟩ := exists_divided hassign
    refine ⟨left, expr, hdivided, fun ev hev => ?_⟩
    have hbinds := binds_of_divided hdivided hev
    have hscope : (evaluateLine line β s).2 = s.define (trim left) ev.value := by
      obtain ⟨_, -, h⟩ := hbinds.evaluateLine_eq β
      rw [h]
    have hbound : (evaluateLine line β s).2.get? (trim left) = some ev.value := by
      rw [hscope, Scope.get?_define, if_pos rfl]
    refine ⟨hbinds.named, hbound, fun other hother => ?_, fun s' hlater hs γ => ?_⟩
    · rw [hscope, Scope.get?_define, if_neg hother.symm]
    · exact yields_name hbinds.named (hlater.get?_eq.trans hbound) hs γ

/-- The radix 42, the largest. -/
def Radix.fortyTwo : Radix := ⟨42, by decide, by decide⟩

/-- The name `sqrt` is bound to a quarter, another name is bound to a root, and a second assignment
to `sqrt` fails. In the radix 42 the letters of `sqrt` are digits, and the line `sqrt` is still a
quarter. -/
theorem evaluateLine_binds_sqrt :
    ∃ s s', s = (evaluateLine "sqrt := 1/4" Radix.ten Scope.initial).2 ∧
      s' = (evaluateLine "sqrt := 1/" Radix.ten (evaluateLine "a := sqrt(2)" Radix.ten s).2).2 ∧
      Later "sqrt" s s' ∧
      (Numeral.read "sqrt" Radix.fortyTwo Scope.empty).map (decide <| · ≠ 1 / 4) = .ok true ∧
      Yields "sqrt" Radix.fortyTwo s' (1 / 4) [] := by
  refine ⟨_, _, rfl, rfl, ?_⟩
  set s := (evaluateLine "sqrt := 1/4" Radix.ten Scope.initial).2
  set s' := (evaluateLine "sqrt := 1/" Radix.ten (evaluateLine "a := sqrt(2)" Radix.ten s).2).2
  have hvalue : (evaluateLine "sqrt := 1/4" Radix.ten Scope.initial).1.map Evaluation.value =
      .ok (1 / 4) := by decide +kernel
  have hfailed : (evaluateLine "sqrt := 1/" Radix.ten
      (evaluateLine "a := sqrt(2)" Radix.ten s).2).1.isOk = false := by decide +kernel
  have hsettings : s'.settings.isOk = true := by decide +kernel
  have hother : splitAssignment? "a := sqrt(2)" = some ("a ", " sqrt(2)") := by decide +kernel
  have hlater : Later "sqrt" s s' := by
    refine .line (.line .refl _ _ ?_) _ _ ?_
    · rintro ⟨-, left, expr, hdivided, hleft⟩
      rw [← splitAssignment?_eq_some_iff, hother] at hdivided
      cases hdivided
      revert hleft
      decide +kernel
    · rintro ⟨⟨ev, hev⟩, -⟩
      rw [hev] at hfailed
      cases hfailed
  refine ⟨hlater, by decide +kernel, ?_⟩
  obtain ⟨left, expr, hdivided, hbinds⟩ :=
    (evaluateLine_binds "sqrt := 1/4" Radix.ten Scope.initial).2.2 (by decide)
  have hsplit : splitAssignment? "sqrt := 1/4" = some ("sqrt ", " 1/4") := by decide +kernel
  rw [← splitAssignment?_eq_some_iff, hsplit] at hdivided
  cases hdivided
  have htrim : trim "sqrt " = "sqrt" := by decide +kernel
  cases hline : (evaluateLine "sqrt := 1/4" Radix.ten Scope.initial).1 with
  | error f =>
    rw [hline] at hvalue
    cases hvalue
  | ok ev =>
    rw [hline] at hvalue
    obtain ⟨-, -, -, hread⟩ := hbinds ev hline
    rw [htrim, Except.ok.inj hvalue] at hread
    cases hs : s'.settings with
    | error f =>
      rw [hs] at hsettings
      cases hsettings
    | ok settings => exact hread s' hlater ⟨settings, hs⟩ Radix.fortyTwo

end RadixCalc
