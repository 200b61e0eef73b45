import Mathlib.Data.List.TakeWhile
import RadixCalc.Proofs.Levels
import RadixCalc.Token.Scan

/-!
# How a text is cut

The rules by which a text is cut into tokens, without the pass that applies them.

* `Cuts`: the tokens of a text behind parentheses that are still open.
* `scan_eq_ok_iff`: cutting a text succeeds exactly with the tokens that the rules give.
* `Cuts.notMem`: a text that can be cut has only blanks and characters of tokens.
* `CallsApplied`, `Cuts.callsApplied`: the name of a function stands before a parenthesis.
-/

namespace RadixCalc

open Text

/-! ## Classes of characters -/

/-- A blank is no character of words. -/
theorem isWordChar_of_isBlank {c : Char} (h : isBlank c = true) : isWordChar c = false := by
  have hall : ∀ r ∈ blankRanges, ∀ n ∈ List.range' r.1 (r.2 + 1 - r.1),
      isWordChar (Char.ofNat n) = false := by decide +kernel
  obtain ⟨r, hr, h1, h2⟩ := inRanges_iff.1 h
  have := hall r hr c.toNat (List.mem_range'_1.2 ⟨h1, by omega⟩)
  rwa [Char.ofNat_toNat] at this

theorem isBlank_of_isWordChar {c : Char} (h : isWordChar c = true) : isBlank c = false := by
  rw [← Bool.not_eq_true]
  intro hb
  rw [isWordChar_of_isBlank hb] at h
  cases h

/-- A character of words is neither a parenthesis nor the sign of an operator. -/
theorem ofChar?_of_isWordChar {c : Char} (h : isWordChar c = true) :
    c ≠ '(' ∧ c ≠ ')' ∧ Operator.ofChar? c = none := by
  refine ⟨?_, ?_, ?_⟩
  · rintro rfl; revert h; decide +kernel
  · rintro rfl; revert h; decide +kernel
  · unfold Operator.ofChar?
    split
    · revert h; decide +kernel
    · revert h; decide +kernel
    · revert h; decide +kernel
    · revert h; decide +kernel
    · revert h; decide +kernel
    · rfl

theorem isWordCharIn_iff {inCall : Bool} {c : Char} :
    isWordCharIn inCall c = true ↔ isWordChar c = true ∧ ¬ (inCall = true ∧ c = ',') := by
  unfold isWordCharIn
  cases inCall <;> simp

/-- The sign of an operator is nothing else. -/
theorem sign_plain (o : Operator) : isBlank o.sign = false ∧ o.sign ≠ '(' ∧ o.sign ≠ ')' ∧
    o.sign ≠ ',' := by
  cases o <;> decide

theorem ofChar?_eq_some_iff {c : Char} {o : Operator} :
    Operator.ofChar? c = some o ↔ o.sign = c := by
  constructor
  · intro h
    unfold Operator.ofChar? at h
    split at h <;> cases h <;> rfl
  · rintro rfl
    exact Operator.ofChar?_sign o

namespace Token

/-! ## The rules -/

/-- The characters `w` are a word in front of `s`: they cannot be extended. -/
structure IsRun (inCall : Bool) (w s : List Char) : Prop where
  ne_nil : w ≠ []
  all : ∀ c ∈ w, isWordCharIn inCall c = true
  stops : ∀ c ∈ s.head?, isWordCharIn inCall c = false

/-- The tokens of a text. The list tells of each parenthesis still open in front of it, innermost
first, whether it is that of a call. -/
inductive Cuts : List Bool → List Char → List Token → Prop
  | nil {calls} : Cuts calls [] []
  | blank {calls c s ts} (hc : isBlank c = true) : Cuts calls s ts → Cuts calls (c :: s) ts
  | opening {calls s ts} : Cuts (false :: calls) s ts → Cuts calls ('(' :: s) (.opening :: ts)
  | closing {calls s ts} : Cuts calls.tail s ts → Cuts calls (')' :: s) (.closing :: ts)
  | comma {calls s ts} (hc : calls.head? = some true) :
      Cuts calls s ts → Cuts calls (',' :: s) (.comma :: ts)
  | op {calls s ts} (o : Operator) : Cuts calls s ts → Cuts calls (o.sign :: s) (.op o :: ts)
  | word {calls w s text ts} (hw : IsRun (calls.head? == some true) w s)
      (ht : ofWord w s = .ok (.word text)) :
      Cuts calls s ts → Cuts calls (w ++ s) (.word text :: ts)
  | call {calls w b s f ts} (hw : IsRun (calls.head? == some true) w (b ++ '(' :: s))
      (ht : ofWord w (b ++ '(' :: s) = .ok (.call f)) (hf : (arity? f).isSome = true)
      (hb : ∀ c ∈ b, isBlank c = true) :
      Cuts (true :: calls) s ts → Cuts calls (w ++ (b ++ '(' :: s)) (.call f :: .opening :: ts)

variable {done ts us r : List Token} {calls more : List Bool} {s rest w b : List Char}
  {t : Token} {c : Char} {inCall : Bool}

/-! ## Words -/

theorem isRun_takeWhile (h : isWordCharIn inCall c = true) (s : List Char) :
    IsRun inCall (c :: s.takeWhile (isWordCharIn inCall)) (s.dropWhile (isWordCharIn inCall)) := by
  refine ⟨nofun, ?_, ?_⟩
  · intro d hd
    rcases List.mem_cons.1 hd with rfl | hd
    · exact h
    · exact List.mem_takeWhile_imp hd
  · intro d hd
    have hstop := List.head?_dropWhile_not (isWordCharIn inCall) s
    rw [Option.mem_def.1 hd] at hstop
    exact hstop

/-- A run of characters of words is cut off as a whole. -/
theorem IsRun.takeWhile (h : IsRun inCall w s) :
    (w ++ s).takeWhile (isWordCharIn inCall) = w ∧
      (w ++ s).dropWhile (isWordCharIn inCall) = s := by
  rw [List.takeWhile_append_of_pos h.all, List.dropWhile_append_of_pos h.all]
  cases s with
  | nil => simp
  | cons d s =>
    have hd := h.stops d rfl
    rw [List.takeWhile_cons, List.dropWhile_cons, hd]
    simp

/-- The token of a word is the word or, before a parenthesis, the function that it names. -/
theorem ofWord_eq_ok (h : ofWord w s = .ok t) :
    t = .word (String.ofList w) ∨
      ∃ f, t = .call f ∧ (arity? f).isSome = true ∧ opens (s.dropWhile isBlank) = true := by
  unfold ofWord at h
  dsimp only at h
  split at h
  · rename_i hc
    rw [Bool.and_eq_true] at hc
    cases h
    exact .inr ⟨_, rfl, hc.2, hc.1⟩
  · split at h
    · cases h
    · cases h
      exact .inl rfl

theorem opens_iff : opens s = true ↔ ∃ s', s = '(' :: s' := by
  unfold opens
  cases s with
  | nil => simp
  | cons c s => simp

/-- A text opens no parenthesis if it opens none behind its first blanks. -/
theorem opens_of_dropWhile (h : opens (s.dropWhile isBlank) = false) : opens s = false := by
  rw [← Bool.not_eq_true]
  intro hopens
  obtain ⟨s, rfl⟩ := opens_iff.1 hopens
  rw [List.dropWhile_cons_of_neg (by decide)] at h
  cases h

/-- The text between the name of a function and its parenthesis is blank. -/
theorem opens_dropWhile_iff :
    opens (s.dropWhile isBlank) = true ↔
      ∃ b s', s = b ++ '(' :: s' ∧ ∀ c ∈ b, isBlank c = true := by
  rw [opens_iff]
  constructor
  · rintro ⟨s', hs'⟩
    refine ⟨s.takeWhile isBlank, s', ?_, fun c hc => List.mem_takeWhile_imp hc⟩
    rw [← hs', List.takeWhile_append_dropWhile]
  · rintro ⟨b, s', rfl, hb⟩
    refine ⟨s', ?_⟩
    rw [List.dropWhile_append_of_pos hb]
    rfl

/-- Blanks in front of a text do not matter. -/
theorem Cuts.blanks (hb : ∀ c ∈ b, isBlank c = true) (h : Cuts calls s ts) :
    Cuts calls (b ++ s) ts := by
  induction b with
  | nil => exact h
  | cons c b ih =>
    exact .blank (hb c List.mem_cons_self) (ih fun d hd => hb d (List.mem_cons_of_mem _ hd))

/-! ## From the rules to the pass and back -/

theorem scanOnto_blank (hc : isBlank c = true) :
    scanOnto done calls (c :: s) = scanOnto done calls s := by
  rw [scanOnto, if_pos hc]

theorem scanOnto_blanks (hb : ∀ c ∈ b, isBlank c = true) :
    scanOnto done calls (b ++ s) = scanOnto done calls s := by
  induction b with
  | nil => rfl
  | cons c b ih =>
    rw [List.cons_append, scanOnto_blank (hb c List.mem_cons_self)]
    exact ih fun d hd => hb d (List.mem_cons_of_mem _ hd)

theorem scanOnto_opening :
    scanOnto done calls ('(' :: s) = scanOnto (.opening :: done) (endsInCall done :: calls) s := by
  rw [scanOnto, if_neg (by decide), if_pos rfl]

theorem scanOnto_closing :
    scanOnto done calls (')' :: s) = scanOnto (.closing :: done) calls.tail s := by
  rw [scanOnto, if_neg (by decide), if_neg (by decide), if_pos rfl]

theorem scanOnto_comma (hc : calls.head? = some true) :
    scanOnto done calls (',' :: s) = scanOnto (.comma :: done) calls s := by
  rw [scanOnto, if_neg (by decide), if_neg (by decide), if_neg (by decide), hc]
  rfl

theorem scanOnto_op (o : Operator) :
    scanOnto done calls (o.sign :: s) = scanOnto (.op o :: done) calls s := by
  obtain ⟨h1, h2, h3, h4⟩ := sign_plain o
  rw [scanOnto, if_neg (by rw [h1]; decide), if_neg h2, if_neg h3, if_neg (by simp [h4]),
    Operator.ofChar?_sign]

/-- Behind a word the pass goes on with the token of the word, if it has one. -/
theorem scanOnto_run (hw : IsRun (calls.head? == some true) w s) :
    scanOnto done calls (w ++ s) = ofWord w s >>= fun t => scanOnto (t :: done) calls s := by
  obtain ⟨htake, hdrop⟩ := hw.takeWhile
  cases w with
  | nil => exact absurd rfl hw.ne_nil
  | cons c w =>
    have hc := hw.all c List.mem_cons_self
    obtain ⟨hword, hcomma⟩ := isWordCharIn_iff.1 hc
    obtain ⟨h1, h2, h3⟩ := ofChar?_of_isWordChar hword
    rw [List.cons_append, List.takeWhile_cons_of_pos hc] at htake
    rw [List.cons_append, List.dropWhile_cons_of_pos hc] at hdrop
    have htake := (List.cons.inj htake).2
    rw [List.cons_append, scanOnto, if_neg (by rw [isBlank_of_isWordChar hword]; decide),
      if_neg h1, if_neg h2, if_neg (by simpa [and_comm] using hcomma), h3]
    dsimp only
    rw [if_pos hword, htake, hdrop]
    cases ofWord (c :: w) s <;> rfl

theorem scanOnto_word (hw : IsRun (calls.head? == some true) w s) (ht : ofWord w s = .ok t) :
    scanOnto done calls (w ++ s) = scanOnto (t :: done) calls s := by
  rw [scanOnto_run hw, ht]
  rfl

/-- The pass finds the tokens that the rules give. -/
theorem scanOnto_of_cuts (h : Cuts calls s ts) :
    ∀ done, endsInCall done = false → scanOnto done calls s = .ok (done.reverse ++ ts) := by
  induction h with
  | nil =>
    intro done _
    rw [scanOnto, List.append_nil]
  | blank hc _ ih =>
    intro done hd
    rw [scanOnto_blank hc, ih done hd]
  | opening _ ih =>
    intro done hd
    rw [scanOnto_opening, hd, ih _ rfl, List.reverse_cons, List.append_assoc]
    rfl
  | closing _ ih =>
    intro done hd
    rw [scanOnto_closing, ih _ rfl, List.reverse_cons, List.append_assoc]
    rfl
  | comma hc _ ih =>
    intro done hd
    rw [scanOnto_comma hc, ih _ rfl, List.reverse_cons, List.append_assoc]
    rfl
  | op o _ ih =>
    intro done hd
    rw [scanOnto_op, ih _ rfl, List.reverse_cons, List.append_assoc]
    rfl
  | word hw ht _ ih =>
    intro done hd
    rw [scanOnto_word hw ht, ih _ rfl, List.reverse_cons, List.append_assoc]
    rfl
  | call hw ht _ hb _ ih =>
    intro done hd
    rw [scanOnto_word hw ht, scanOnto_blanks hb, scanOnto_opening]
    show scanOnto _ (true :: _) _ = _
    rw [ih _ rfl, List.reverse_cons, List.reverse_cons, List.append_assoc, List.append_assoc]
    rfl

/-- What the pass finds behind `done` in a text: its tokens by the rules or, behind the name of a
function, the parenthesis and the tokens inside it. -/
def Found (done : List Token) (calls : List Bool) (s : List Char) (ts : List Token) : Prop :=
  if endsInCall done then
    ∀ b s', (∀ c ∈ b, isBlank c = true) → s = b ++ '(' :: s' →
      ∃ us, ts = .opening :: us ∧ Cuts (true :: calls) s' us
  else Cuts calls s ts

theorem found_iff_cuts (h : endsInCall done = false) : Found done calls s ts ↔ Cuts calls s ts := by
  unfold Found
  rw [h]
  exact Iff.rfl

/-- Behind the name of a function nothing is found but blanks and a parenthesis. -/
theorem found_of_plain (hc : isBlank c = false) (hne : c ≠ '(')
    (h : endsInCall done = false → Cuts calls (c :: s) ts) : Found done calls (c :: s) ts := by
  unfold Found
  split
  · intro b s' hb heq
    cases b with
    | nil => exact absurd (List.cons.inj heq).1 hne
    | cons d b =>
      have := hb d List.mem_cons_self
      rw [← (List.cons.inj heq).1, hc] at this
      cases this
  · rename_i hd
    exact h (by simpa using hd)

/-- What is found behind one more token is found behind it and the token. -/
theorem found_cons {r : List Token} {P : List Token → Prop}
    (h : ∃ us, r = (t :: done).reverse ++ us ∧ P us) :
    ∃ ts, r = done.reverse ++ ts ∧ ∃ us, ts = t :: us ∧ P us := by
  obtain ⟨us, rfl, hus⟩ := h
  exact ⟨t :: us, by rw [List.reverse_cons, List.append_assoc]; rfl, us, rfl, hus⟩

/-- A blank in front of a text changes nothing. -/
theorem Found.blank (hc : isBlank c = true) (h : Found done calls s ts) :
    Found done calls (c :: s) ts := by
  unfold Found at h ⊢
  split
  · rename_i hd
    rw [if_pos hd] at h
    intro b s' hb heq
    cases b with
    | nil =>
      rw [(List.cons.inj heq).1] at hc
      exact absurd hc (by decide)
    | cons d b =>
      exact h b s' (fun e he => hb e (List.mem_cons_of_mem _ he)) (List.cons.inj heq).2
  · rename_i hd
    rw [if_neg hd] at h
    exact .blank hc h

/-- The end of a text has no parenthesis for the name of a function. -/
theorem found_nil (done : List Token) (calls : List Bool) : Found done calls [] [] := by
  unfold Found
  split
  · intro b s' _ heq
    cases b <;> cases heq
  · exact .nil

/-- A parenthesis is that of the function named in front of it, or opens a group. -/
theorem found_opening (h : Cuts (endsInCall done :: calls) s us) :
    Found done calls ('(' :: s) (.opening :: us) := by
  unfold Found
  split
  · rename_i hd
    rw [hd] at h
    intro b s' hb heq
    cases b with
    | nil =>
      cases heq
      exact ⟨us, rfl, h⟩
    | cons d b =>
      have hblank := hb d List.mem_cons_self
      rw [← (List.cons.inj heq).1] at hblank
      exact absurd hblank (by decide)
  · rename_i hd
    rw [Bool.not_eq_true] at hd
    rw [hd] at h
    exact .opening h

/-- A word is found, or the name of a function with its parenthesis. -/
theorem cuts_of_found_run (hw : IsRun (calls.head? == some true) w s) (ht : ofWord w s = .ok t)
    (h : Found (t :: done) calls s us) : Cuts calls (w ++ s) (t :: us) := by
  rcases ofWord_eq_ok ht with rfl | ⟨f, rfl, hf, hopens⟩
  · exact .word hw ht ((found_iff_cuts rfl).1 h)
  · obtain ⟨b, s', rfl, hb⟩ := opens_dropWhile_iff.1 hopens
    obtain ⟨us, rfl, hcuts⟩ := h b s' hb rfl
    exact .call hw ht hf hb hcuts

/-- **What the pass finds is what the rules give**, by induction on the pass. -/
theorem found_of_scanOnto : ∀ r, scanOnto done calls s = .ok r →
    ∃ ts, r = done.reverse ++ ts ∧ Found done calls s ts := by
  fun_induction scanOnto done calls s with
  | case1 done calls =>
    intro r h
    cases h
    exact ⟨[], (List.append_nil _).symm, found_nil done calls⟩
  | case2 done calls c s hc ih =>
    intro r h
    obtain ⟨ts, hr, hts⟩ := ih r h
    exact ⟨ts, hr, hts.blank hc⟩
  | case3 done calls s hc ih =>
    intro r h
    obtain ⟨ts, hr, us, rfl, hus⟩ := found_cons (ih r h)
    exact ⟨_, hr, found_opening ((found_iff_cuts rfl).1 hus)⟩
  | case4 done calls s hc hne ih =>
    intro r h
    obtain ⟨ts, hr, us, rfl, hus⟩ := found_cons (ih r h)
    refine ⟨_, hr, found_of_plain (by simpa using hc) hne fun _ => ?_⟩
    exact .closing ((found_iff_cuts rfl).1 hus)
  | case5 done calls c s inCall hc hne hne' hcomma ih =>
    intro r h
    obtain ⟨ts, hr, us, rfl, hus⟩ := found_cons (ih r h)
    refine ⟨_, hr, found_of_plain (by simpa using hc) hne fun _ => ?_⟩
    simp only [Bool.and_eq_true, decide_eq_true_eq, inCall, beq_iff_eq] at hcomma
    obtain ⟨rfl, hcalls⟩ := hcomma
    exact .comma hcalls ((found_iff_cuts rfl).1 hus)
  | case6 done calls c s inCall hc hne hne' hcomma o ho ih =>
    intro r h
    obtain ⟨ts, hr, us, rfl, hus⟩ := found_cons (ih r h)
    refine ⟨_, hr, found_of_plain (by simpa using hc) hne fun _ => ?_⟩
    rw [← ofChar?_eq_some_iff.1 ho]
    exact .op o ((found_iff_cuts rfl).1 hus)
  | case7 done calls c s inCall hc hne hne' hcomma ho hword after t ht ih =>
    intro r h
    obtain ⟨ts, hr, us, rfl, hus⟩ := found_cons (ih r h)
    refine ⟨_, hr, found_of_plain (by simpa using hc) hne fun _ => ?_⟩
    have hin : isWordCharIn inCall c = true := by
      rw [isWordCharIn_iff]
      exact ⟨hword, fun h => hcomma (by simp [h.1, h.2])⟩
    -- the word is cut off as a whole, and the text behind it decides what it is
    have hs : c :: s = (c :: s.takeWhile (isWordCharIn inCall)) ++ after := by
      rw [List.cons_append, List.takeWhile_append_dropWhile]
    rw [hs]
    exact cuts_of_found_run (isRun_takeWhile hin s) ht hus
  | case8 =>
    intro r h
    cases h
  | case9 =>
    intro r h
    cases h

/-- **Cutting a text** succeeds exactly with the tokens that the rules give. -/
theorem scan_eq_ok_iff {text : String} : scan text = .ok ts ↔ Cuts [] text.toList ts := by
  constructor
  · intro h
    obtain ⟨us, rfl, hus⟩ := found_of_scanOnto _ h
    exact (found_iff_cuts rfl).1 hus
  · intro h
    exact scanOnto_of_cuts h [] rfl

/-- A text that cannot be cut has a character of no token, or calls what is no function. -/
theorem fault_of_scanOnto {f : Fault} : scanOnto done calls s = .error f →
    (∃ c, f = .unexpectedChar c) ∨ ∃ name, f = .unknownFunction name := by
  fun_induction scanOnto done calls s with
  | case1 => intro h; cases h
  | case8 done calls c s inCall hc hne hne' hcomma ho hword after g hg =>
    intro h
    cases h
    unfold ofWord at hg
    dsimp only at hg
    split at hg
    · cases hg
    split at hg
    · cases hg
      exact .inr ⟨_, rfl⟩
    · cases hg
  | case9 =>
    intro h
    cases h
    exact .inl ⟨_, rfl⟩
  | _ => assumption

/-! ## Characters of no token -/

/-- A character that is in no token and is no blank is not in a text that can be cut. -/
theorem Cuts.notMem (h : Cuts calls s ts) (hblank : isBlank c = false) (hword : isWordChar c = false)
    (hopening : c ≠ '(') (hclosing : c ≠ ')') (hsign : ∀ o : Operator, c ≠ o.sign) : c ∉ s := by
  have hrun {inCall : Bool} {w s : List Char} (hw : IsRun inCall w s) : c ∉ w := by
    intro hmem
    rw [(isWordCharIn_iff.1 (hw.all c hmem)).1] at hword
    cases hword
  induction h with
  | nil => exact List.not_mem_nil
  | blank hc _ ih =>
    refine List.not_mem_cons_of_ne_of_not_mem ?_ ih
    rintro rfl
    rw [hblank] at hc
    cases hc
  | opening _ ih => exact List.not_mem_cons_of_ne_of_not_mem hopening ih
  | closing _ ih => exact List.not_mem_cons_of_ne_of_not_mem hclosing ih
  | comma _ _ ih =>
    refine List.not_mem_cons_of_ne_of_not_mem ?_ ih
    rintro rfl
    revert hword
    decide +kernel
  | op o _ ih => exact List.not_mem_cons_of_ne_of_not_mem (hsign o) ih
  | word hw _ _ ih => exact List.not_mem_append (hrun hw) ih
  | call hw _ _ hb _ ih =>
    refine List.not_mem_append (hrun hw) (List.not_mem_append ?_ ?_)
    · intro hmem
      rw [hb c hmem] at hblank
      cases hblank
    · exact List.not_mem_cons_of_ne_of_not_mem hopening ih

/-! ## Names of functions -/

/-- The name of a function stands nowhere but before a parenthesis, and there is such a function. -/
inductive CallsApplied : List Token → Prop
  | nil : CallsApplied []
  | call {f : String} {ts : List Token} (hf : (arity? f).isSome = true) :
      CallsApplied ts → CallsApplied (.call f :: .opening :: ts)
  | cons {t : Token} {ts : List Token} (ht : ∀ f, t ≠ .call f) :
      CallsApplied ts → CallsApplied (t :: ts)

/-- **The tokens of a text** call functions only where their arguments begin. -/
theorem Cuts.callsApplied (h : Cuts calls s ts) : CallsApplied ts := by
  induction h with
  | nil => exact .nil
  | blank _ _ ih => exact ih
  | call _ _ hf _ _ ih => exact .call hf ih
  | opening _ ih => exact .cons nofun ih
  | closing _ ih => exact .cons nofun ih
  | comma _ _ ih => exact .cons nofun ih
  | op _ _ ih => exact .cons nofun ih
  | word _ _ _ ih => exact .cons nofun ih

end Token

end RadixCalc
