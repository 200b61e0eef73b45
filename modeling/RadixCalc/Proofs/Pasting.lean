import RadixCalc.Proofs.Pieces
import RadixCalc.Proofs.Words

/-!
# Typing in what is shown

The tokens of a text, as they are shown with a space between any two, are a text with the same
tokens. What becomes of a text is told by its tokens alone, so this one has the same value.

* `Token.spaced`, `Token.Cuts.spaced`: tokens with a space in front of each.
* `Token.scan_joined`: the tokens of tokens as they are shown.
* `Token.scan_trim`: blanks at the ends of a text do not change its tokens, nor whether it can be
  cut.
* `evaluateLine_eq_of_scan`: what becomes of a line is told by its tokens.
* `pasted_of_scan`: the line that is shown.
-/

namespace RadixCalc

open Text Token

variable {ts : List Token} {t : Token} {calls : List Bool} {s s' w b : List Char} {inCall : Bool}
  {f text text' : String} {β : Radix} {scope : Scope} {ev : Evaluation}

namespace Token

/-! ## Spaces between tokens -/

/-- The texts of tokens with a space in front of each. -/
def spaced (ts : List Token) : List Char :=
  ts.flatMap fun t => ' ' :: t.text.toList

theorem spaced_cons (t : Token) (ts : List Token) :
    spaced (t :: ts) = ' ' :: (t.text.toList ++ spaced ts) :=
  List.flatMap_cons

theorem toList_joined (t : Token) (ts : List Token) :
    ' ' :: (joined (t :: ts)).toList = spaced (t :: ts) := by
  induction ts generalizing t with
  | nil =>
    rw [spaced_cons]
    unfold joined
    simp [spaced]
  | cons u ts ih =>
    rw [spaced_cons, ← ih u]
    unfold joined
    simp

/-- Tokens with spaces end any word in front of them, and touch no parenthesis. -/
theorem isRun_spaced (hne : w ≠ []) (hw : ∀ c ∈ w, isWordCharIn inCall c = true)
    (ts : List Token) : IsRun inCall w (spaced ts) := by
  refine ⟨hne, hw, ?_⟩
  intro c hc
  cases ts with
  | nil => cases hc
  | cons t ts =>
    cases hc
    cases inCall <;> decide +kernel

theorem opens_spaced (ts : List Token) : opens (spaced ts) = false := by
  cases ts with
  | nil => rfl
  | cons t ts => rfl

/-! ## Words -/

theorem opens_of_isRun (hw : IsRun inCall w s) :
    opens ((w ++ s).dropWhile isBlank) = false := by
  cases w with
  | nil => exact absurd rfl hw.ne_nil
  | cons c w =>
    have hc := hw.isWordChar c List.mem_cons_self
    rw [List.cons_append, List.dropWhile_cons_of_neg (by rw [isBlank_of_isWordChar hc]; decide),
      ← Bool.not_eq_true, opens_iff]
    rintro ⟨s', hs'⟩
    exact (ofChar?_of_isWordChar hc).1 (List.cons.inj hs').1

/-- Whether a parenthesis comes next is told by the first token. -/
theorem Cuts.opens_eq (h : Cuts calls s ts) :
    opens (s.dropWhile isBlank) = (ts.head? == some .opening) := by
  induction h with
  | nil => rfl
  | blank hc _ ih =>
    rw [List.dropWhile_cons_of_pos hc]
    exact ih
  | opening | closing | comma => rfl
  | op o => cases o <;> rfl
  | word hw | call hw => exact opens_of_isRun hw

/-- What is behind a word matters only by whether a parenthesis comes next, as long as none touches
the word. -/
theorem ofWord_congr (hopens : opens (s'.dropWhile isBlank) = opens (s.dropWhile isBlank))
    (hs' : opens s' = false) (h : ofWord w s = .ok t) : ofWord w s' = .ok t := by
  unfold ofWord at h ⊢
  dsimp only at h ⊢
  rw [hopens, hs']
  split at h
  · rw [if_pos ‹_›]
    exact h
  · rw [if_neg ‹_›]
    split at h
    · cases h
    · exact h

/-- The name of a function is cut off as a call, with blanks between it and its parenthesis. -/
theorem ofWord_name (hf : (arity? f).isSome = true) (hs : opens (s.dropWhile isBlank) = true) :
    ofWord f.toList s = .ok (.call f) := by
  have hlower : String.ofList (f.toList.map Char.toLower) = f := by
    rcases eq_of_arity hf with rfl | rfl <;> decide
  unfold ofWord
  dsimp only
  rw [hlower, hs, hf]
  rfl

theorem isWordCharIn_of_name (hf : (arity? f).isSome = true) (inCall : Bool) :
    ∀ c ∈ f.toList, isWordCharIn inCall c = true := by
  rw [← List.all_eq_true]
  rcases eq_of_arity hf with rfl | rfl <;> cases inCall <;> decide +kernel

/-! ## The same tokens -/

/-- **Tokens with a space in front of each** are cut into the same tokens, behind the same
parentheses. -/
theorem Cuts.spaced (h : Cuts calls s ts) : Cuts calls (spaced ts) ts := by
  induction h with
  | nil => exact .nil
  | blank _ _ ih => exact ih
  | opening _ ih => exact .blank rfl (.opening ih)
  | closing _ ih => exact .blank rfl (.closing ih)
  | comma hc _ ih => exact .blank rfl (.comma hc ih)
  | op o _ ih =>
    have htext : (Token.op o).text.toList = [o.sign] := by cases o <;> rfl
    rw [spaced_cons, htext]
    exact .blank rfl (.op o ih)
  | @word calls w s text ts hw ht hcuts ih =>
    -- the word keeps its token: a parenthesis that comes next is still the next token
    have hopens : opens ((Token.spaced ts).dropWhile isBlank) = opens (s.dropWhile isBlank) := by
      rw [ih.opens_eq, hcuts.opens_eq]
    rw [spaced_cons]
    refine .blank rfl ?_
    show Cuts calls (text.toList ++ Token.spaced ts) _
    rw [toList_of_ofWord ht]
    exact .word (isRun_spaced hw.ne_nil hw.all ts) (ofWord_congr hopens (opens_spaced ts) ht) ih
  | @call calls w b s f ts hw ht hf hb hcuts ih =>
    have hne : f.toList ≠ [] := by rcases eq_of_arity hf with rfl | rfl <;> decide
    have hrun := isRun_spaced hne (isWordCharIn_of_name hf (calls.head? == some true))
      (.opening :: ts)
    have hb' : ∀ c ∈ [' '], isBlank c = true := List.forall_mem_singleton.2 rfl
    rw [spaced_cons]
    exact .blank rfl (.call hrun (ofWord_name hf rfl) hf hb' ih)

/-- **Tokens as they are shown** are cut into themselves. -/
theorem scan_joined (h : scan text = .ok ts) : scan (joined ts) = .ok ts := by
  cases ts with
  | nil => rw [scan_eq_ok_iff]; exact .nil
  | cons t ts =>
    have hspaced := scanOnto_of_cuts (scan_eq_ok_iff.1 h).spaced [] rfl
    rw [← toList_joined, scanOnto_blank rfl] at hspaced
    exact hspaced

/-! ## Blanks at the ends -/

/-- The first word of a text is the same with blanks behind the text. -/
theorem scanOnto_append_run {c : Char} {done : List Token} (hc : isWordChar c = true)
    (hcomma : ¬ ((calls.head? == some true) = true ∧ c = ',')) (hb : Stops b) :
    scanOnto done calls (c :: s ++ b) =
      ofWord (c :: s.takeWhile (isWordCharIn (calls.head? == some true)))
        (s.dropWhile (isWordCharIn (calls.head? == some true)) ++ b) >>= fun t =>
          scanOnto (t :: done) calls
            (s.dropWhile (isWordCharIn (calls.head? == some true)) ++ b) := by
  have hrun := isRun_takeWhile (isWordCharIn_iff.2 ⟨hc, hcomma⟩) s
  rw [← scanOnto_run (hrun.append hb), ← List.append_assoc]
  simp

/-- Blanks behind a text do not matter, not even to how it fails. -/
theorem scanOnto_append_blanks (hb : ∀ c ∈ b, isBlank c = true) (done : List Token)
    (calls : List Bool) (s : List Char) :
    scanOnto done calls (s ++ b) = scanOnto done calls s := by
  have hstops : Stops b := by
    have h := stops_of_blanks hb stops_nil
    rwa [List.append_nil] at h
  fun_induction scanOnto done calls s with
  | case1 done calls =>
    rw [List.nil_append, ← List.append_nil b, scanOnto_blanks hb, scanOnto]
  | case2 done calls c s hc ih => rw [List.cons_append, scanOnto_blank hc, ih]
  | case3 done calls s hc ih => rw [List.cons_append, scanOnto_opening, ih]
  | case4 done calls s hc hne ih => rw [List.cons_append, scanOnto_closing, ih]
  | case5 done calls c s inCall hc hne hne' hcomma ih =>
    simp only [Bool.and_eq_true, decide_eq_true_eq, inCall, beq_iff_eq] at hcomma
    obtain ⟨rfl, hcalls⟩ := hcomma
    rw [List.cons_append, scanOnto_comma hcalls, ih]
  | case6 done calls c s inCall hc hne hne' hcomma o ho ih =>
    rw [← ofChar?_eq_some_iff.1 ho, List.cons_append, scanOnto_op, ih]
  | case7 done calls c s inCall hc hne hne' hcomma ho hword after t ht ih =>
    rw [← ofWord_append hstops] at ht
    rw [scanOnto_append_run hword (by simpa [and_comm, inCall] using hcomma) hstops, ht]
    exact ih
  | case8 done calls c s inCall hc hne hne' hcomma ho hword after g hg =>
    rw [← ofWord_append hstops] at hg
    rw [scanOnto_append_run hword (by simpa [and_comm, inCall] using hcomma) hstops, hg]
    rfl
  | case9 done calls c s inCall hc hne hne' hcomma ho hword =>
    rw [List.cons_append, scanOnto, if_neg hc, if_neg hne, if_neg hne', if_neg hcomma, ho]
    dsimp only
    rw [if_neg hword]

/-- **Blanks at the ends of a text** do not change its tokens, nor whether it can be cut. -/
theorem scan_trim (text : String) : scan (trim text) = scan text := by
  obtain ⟨b, b', hb, hb', htext⟩ := exists_blanks_trim text
  unfold scan
  rw [htext, scanOnto_append_blanks hb', scanOnto_blanks hb]

end Token

/-! ## What becomes of lines -/

theorem Token.Spelt.eq_nil (h : Spelt [] s) : s = [] := by
  cases h
  rfl

/-- A text is blank when it has no tokens. -/
theorem trim_eq_empty_iff (h : scan text = .ok ts) : trim text = "" ↔ ts = [] := by
  constructor
  · intro hblank
    rw [← scan_trim, hblank] at h
    unfold scan at h
    rw [String.toList_empty, scanOnto] at h
    exact (Except.ok.inj h).symm
  · rintro rfl
    have hvisible := (scan_eq_ok_iff.1 h).spelt.eq_nil
    have hblank : ∀ c ∈ text.toList, isBlank c = true := by
      simpa [visible] using hvisible
    unfold trim
    rw [List.dropWhile_eq_nil_iff.2 hblank]
    rfl

/-- There is no colon in a text that can be cut. -/
theorem Token.Cuts.colon_notMem (h : Cuts calls s ts) : ':' ∉ s :=
  h.notMem (by decide) (by decide +kernel) (by decide) (by decide) fun o => by cases o <;> decide

/-- A text that can be cut is no assignment. -/
theorem plain_of_scan (h : scan text = .ok ts) : ¬ [':', '='] <:+: text.toList := by
  intro hinside
  exact (scan_eq_ok_iff.1 h).colon_notMem (hinside.subset List.mem_cons_self)

/-- **What becomes of a text** is told by its tokens. -/
theorem evaluate_eq_of_scan (h : scan text = .ok ts) (h' : scan text' = .ok ts) :
    evaluate text β scope = evaluate text' β scope := by
  by_cases hts : ts = []
  · rw [evaluate_of_blank ((trim_eq_empty_iff h).2 hts),
      evaluate_of_blank ((trim_eq_empty_iff h').2 hts)]
  · rw [evaluate_of_visible (mt (trim_eq_empty_iff h).1 hts),
      evaluate_of_visible (mt (trim_eq_empty_iff h').1 hts), scan_trim, scan_trim, h, h']

/-- The same for lines: neither of the two is an assignment. -/
theorem evaluateLine_eq_of_scan (h : scan text = .ok ts) (h' : scan text' = .ok ts) :
    evaluateLine text β scope = evaluateLine text' β scope := by
  rw [evaluateLine_of_plain (plain_of_scan h), evaluateLine_of_plain (plain_of_scan h'),
    evaluate_eq_of_scan h h']

/-- The tokens of a text are what is shown of them. -/
theorem shown_of_evaluate (h : scan text = .ok ts) (hev : evaluate text β scope = .ok ev) :
    ev.workings.tokens = joined ts := by
  rcases evaluate_cases text with ⟨hblank, hzero⟩ | ⟨us, k, e, hu⟩ | ⟨f, -, hfail⟩
  · rw [hzero] at hev
    cases hev
    rw [(trim_eq_empty_iff h).1 hblank]
    rfl
  · obtain ⟨settings, v, i, -, -, rfl⟩ := hu.evaluate_eq_ok_iff.1 hev
    have hcut := hu.cut
    rw [scan_trim, h] at hcut
    rw [Except.ok.inj hcut]
  · rw [hfail] at hev
    cases hev

/-- **Pasting what is shown.** The tokens of a text, as they are shown, have themselves as tokens.
So the line they make has the same outcome as the text, failures included, in every radix and
scope. -/
theorem pasted_of_scan (h : scan text = .ok ts) :
    scan (joined ts) = .ok ts ∧ ∀ β scope,
      evaluateLine (joined ts) β scope = evaluateLine text β scope ∧
      ∀ ev, (evaluateLine text β scope).1 = .ok ev → ev.workings.tokens = joined ts := by
  refine ⟨scan_joined h, fun β scope => ⟨evaluateLine_eq_of_scan (scan_joined h) h, ?_⟩⟩
  intro ev hev
  rw [evaluateLine_of_plain (plain_of_scan h)] at hev
  dsimp only at hev
  exact shown_of_evaluate h hev

/-- A call behind a tab, a comma that divides its arguments, two that do not, and two parentheses
left open. -/
theorem pasted_of_open_call :
    scan "-1,5*ROOT\t(4,(1,0" = .ok [.op .sub, .word "1,5", .op .mul, .call "root", .opening,
        .word "4", .comma, .opening, .word "1,0"] ∧
      (evaluateLine "-1,5*ROOT\t(4,(1,0" Radix.ten Scope.initial).1 =
        .ok ⟨-6, [.missingClose, .missingClose],
          ⟨"- 1,5 * root ( 4 , ( 1,0", "1,5 neg 4 1,0 root *", "(-(1,5)*root(4, 1,0))"⟩⟩ ∧
      scan "- 1,5 * root ( 4 , ( 1,0" = .ok [.op .sub, .word "1,5", .op .mul, .call "root",
        .opening, .word "4", .comma, .opening, .word "1,0"] ∧
      evaluateLine "- 1,5 * root ( 4 , ( 1,0" Radix.ten Scope.initial =
        evaluateLine "-1,5*ROOT\t(4,(1,0" Radix.ten Scope.initial := by
  have h : scan "-1,5*ROOT\t(4,(1,0" = .ok [.op .sub, .word "1,5", .op .mul, .call "root",
      .opening, .word "4", .comma, .opening, .word "1,0"] := by decide +kernel
  have hshown : joined [.op .sub, .word "1,5", .op .mul, .call "root", .opening, .word "4", .comma,
      .opening, .word "1,0"] = "- 1,5 * root ( 4 , ( 1,0" := by decide +kernel
  obtain ⟨hscan, hline⟩ := pasted_of_scan h
  rw [hshown] at hscan hline
  exact ⟨h, by decide +kernel, hscan, (hline Radix.ten Scope.initial).1⟩

end RadixCalc
