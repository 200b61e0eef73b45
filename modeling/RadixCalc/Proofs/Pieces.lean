import RadixCalc.Proofs.Cutting

/-!
# The text in its tokens

A text that can be cut stands in its tokens: only its blanks are left out, and the names of functions
are written small.

* `visible`: the characters of a text but for its blanks.
* `Token.Covers`, `Token.Spelt`: the characters of a token, and of tokens one behind another.
* `Token.openCalls`: which of the parentheses still open are those of calls.
* `Token.Stands`: the token in which a character of the text stands.
* `Token.CommasPlaced`, `Token.commasPlaced_append`: what becomes of commas, piece by piece.
* `Token.Faithful`, `Token.faithful_of_scan`: what holds of the tokens of a text.
-/

namespace RadixCalc

open Text

/-! ## Texts without blanks -/

/-- The characters of a text that are no blanks. -/
def visible (s : List Char) : List Char :=
  s.filter (!isBlank ·)

theorem visible_append (s rest : List Char) : visible (s ++ rest) = visible s ++ visible rest :=
  List.filter_append s rest

theorem visible_of_blanks {b : List Char} (hb : ∀ c ∈ b, isBlank c = true) : visible b = [] := by
  rw [visible, List.filter_eq_nil_iff]
  intro c hc
  rw [hb c hc]
  decide

/-- Words have no blanks. -/
theorem visible_of_isWordChar {w : List Char} (hw : ∀ c ∈ w, isWordChar c = true) :
    visible w = w := by
  rw [visible, List.filter_eq_self]
  intro c hc
  rw [isBlank_of_isWordChar (hw c hc)]
  rfl

namespace Token

variable {ts us before behind : List Token} {t : Token} {calls calls' : List Bool}
  {s w p pre post : List Char} {c : Char} {f text : String}

/-! ## The characters of tokens -/

/-- The characters `w` are the text of the token, the name of a function in any case. -/
def Covers (w : List Char) : Token → Prop
  | call f => w.map Char.toLower = f.toList
  | t => w = t.text.toList

/-- **The characters of tokens** one behind another. -/
inductive Spelt : List Token → List Char → Prop
  | nil : Spelt [] []
  | cons {t : Token} {ts : List Token} {w s : List Char} :
      Covers w t → Spelt ts s → Spelt (t :: ts) (w ++ s)

theorem spelt_singleton (hw : Covers w t) : Spelt [t] w := by
  rw [← List.append_nil w]
  exact .cons hw .nil

theorem Spelt.append {s' : List Char} (h : Spelt us s) (h' : Spelt ts s') :
    Spelt (us ++ ts) (s ++ s') := by
  induction h with
  | nil => exact h'
  | cons hw _ ih =>
    rw [List.append_assoc]
    exact .cons hw ih

theorem eq_of_arity (h : (arity? f).isSome = true) : f = "root" ∨ f = "sqrt" := by
  obtain ⟨n, hn⟩ := Option.isSome_iff_exists.1 h
  exact (arity_cases hn).imp And.left And.left

/-- A word that is cut off as itself. -/
theorem toList_of_ofWord (h : ofWord w s = .ok (.word text)) : text.toList = w := by
  rcases ofWord_eq_ok h with hword | ⟨f, hcall, -⟩
  · cases hword
    exact String.toList_ofList
  · cases hcall

/-- A word that is cut off as the name of a function. -/
theorem lower_of_ofWord (h : ofWord w s = .ok (.call f)) : w.map Char.toLower = f.toList := by
  unfold ofWord at h
  dsimp only at h
  split at h
  · cases h
    exact String.toList_ofList.symm
  split at h <;> cases h

theorem IsRun.isWordChar {inCall : Bool} (h : IsRun inCall w s) : ∀ c ∈ w, isWordChar c = true :=
  fun c hc => (isWordCharIn_iff.1 (h.all c hc)).1

/-- **A text without its blanks** is spelt by its tokens. -/
theorem Cuts.spelt (h : Cuts calls s ts) : Spelt ts (visible s) := by
  induction h with
  | nil => exact .nil
  | blank hc _ ih =>
    rw [visible, List.filter_cons_of_neg (by rw [hc]; decide)]
    exact ih
  | opening _ ih => exact .cons (w := ['(']) rfl ih
  | closing _ ih => exact .cons (w := [')']) rfl ih
  | comma _ _ ih => exact .cons (w := [',']) rfl ih
  | op o _ ih => cases o <;> exact .cons (w := [_]) rfl ih
  | word hw ht _ ih =>
    rw [visible_append, visible_of_isWordChar hw.isWordChar]
    exact .cons (toList_of_ofWord ht).symm ih
  | call hw ht _ hb _ ih =>
    rw [visible_append, visible_append, visible_of_isWordChar hw.isWordChar, visible_of_blanks hb]
    exact .cons (lower_of_ofWord ht) (.cons (w := ['(']) rfl ih)

/-- The sign of a negation is not told from that of a subtraction. -/
theorem Cuts.neg_notMem (h : Cuts calls s ts) : Token.neg ∉ ts := by
  induction h with
  | nil => exact List.not_mem_nil
  | blank _ _ ih => exact ih
  | call _ _ _ _ _ ih => simpa using ih
  | opening _ ih | closing _ ih | comma _ _ ih | op _ _ ih | word _ _ _ ih => simpa using ih

/-- The words of a text are not empty, and are made of characters of words. -/
theorem Cuts.word_mem (h : Cuts calls s ts) (hw : Token.word text ∈ ts) :
    text ≠ "" ∧ ∀ c ∈ text.toList, isWordChar c = true := by
  induction h with
  | nil => cases hw
  | blank _ _ ih => exact ih hw
  | opening _ ih | closing _ ih | comma _ _ ih | op _ _ ih =>
    exact ih ((List.mem_cons.1 hw).resolve_left nofun)
  | word hrun ht _ ih =>
    rcases List.mem_cons.1 hw with hword | hw
    · cases hword
      have htext := toList_of_ofWord ht
      refine ⟨?_, htext ▸ hrun.isWordChar⟩
      rintro rfl
      exact hrun.ne_nil htext.symm
    · exact ih hw
  | call _ _ _ _ _ ih =>
    exact ih ((List.mem_cons.1 ((List.mem_cons.1 hw).resolve_left nofun)).resolve_left nofun)

/-- The name of a function is followed by a parenthesis, wherever it stands. -/
theorem CallsApplied.opens (h : CallsApplied ts) (hts : ts = before ++ .call f :: behind) :
    (arity? f).isSome = true ∧ behind.head? = some .opening := by
  induction h generalizing before with
  | nil => cases before <;> cases hts
  | call hf _ ih =>
    match before with
    | [] =>
      cases hts
      exact ⟨hf, rfl⟩
    | [_] => cases hts
    | _ :: _ :: before => exact ih (List.cons.inj (List.cons.inj hts).2).2
  | cons ht _ ih =>
    cases before with
    | nil => exact absurd (List.cons.inj hts).1 (ht f)
    | cons _ before => exact ih (List.cons.inj hts).2

/-! ## Commas -/

/-- Which of the parentheses still open behind tokens are those of calls, innermost first; `calls`
tells of those open before the tokens. A parenthesis that closes nothing changes nothing. -/
def openCalls (calls : List Bool) : List Token → List Bool
  | [] => calls
  | call _ :: opening :: ts => openCalls (true :: calls) ts
  | opening :: ts => openCalls (false :: calls) ts
  | closing :: ts => openCalls calls.tail ts
  | _ :: ts => openCalls calls ts

/-- **The token in which a character stands**: what it has before and behind the character ends the
text before, and begins the text behind, that the other tokens spell. -/
def Stands (pre : List Char) (c : Char) (post : List Char) (before : List Token) (t : Token)
    (behind : List Token) : Prop :=
  ∃ front rest u v, t.text.toList = front ++ c :: rest ∧
    visible pre = u ++ front ∧ Spelt before u ∧ visible post = rest ++ v ∧ Spelt behind v

/-- What a comma is behind parentheses `calls`: a token of its own if the innermost one is that of a
call, and a part of a word if it is not or if there is none. -/
def CommaIs (calls : List Bool) (t : Token) : Prop :=
  if calls.head? = some true then t = .comma else ∃ text, t = .word text

theorem commaIs_comma (hc : calls.head? = some true) : CommaIs calls .comma := by
  rw [CommaIs, if_pos hc]

theorem commaIs_word (hc : ¬ calls.head? = some true) (text : String) :
    CommaIs calls (.word text) := by
  rw [CommaIs, if_neg hc]
  exact ⟨text, rfl⟩

/-- The commas of a text `s` behind parentheses `calls` stand in those of its tokens that they have
to. -/
def CommasPlaced (calls : List Bool) (s : List Char) (ts : List Token) : Prop :=
  ∀ pre post, s = pre ++ ',' :: post → ∃ before t behind, ts = before ++ t :: behind ∧
    Stands pre ',' post before t behind ∧ CommaIs (openCalls calls before) t

theorem Stands.append (hus : Spelt us (visible p)) (h : Stands pre c post before t behind) :
    Stands (p ++ pre) c post (us ++ before) t behind := by
  obtain ⟨front, rest, u, v, htext, hpre, hbefore, hpost, hbehind⟩ := h
  refine ⟨front, rest, visible p ++ u, v, htext, ?_, hus.append hbefore, hpost, hbehind⟩
  rw [visible_append, hpre, List.append_assoc]

/-- **One more piece** in front of a text. It may hold commas if it is a single token, of the kind
that commas have to be. -/
theorem commasPlaced_append (p : List Char) (us : List Token) (hus : Spelt us (visible p))
    (hcalls : ∀ ts, openCalls calls (us ++ ts) = openCalls calls' ts)
    (hcomma : ',' ∈ p → ∃ t, us = [t] ∧ t.text.toList = p ∧ visible p = p ∧ CommaIs calls t)
    (hts : Spelt ts (visible s)) (h : CommasPlaced calls' s ts) :
    CommasPlaced calls (p ++ s) (us ++ ts) := by
  intro pre post heq
  -- a comma behind the piece is one of the text that the piece stands in front of
  have hbehind : ∀ pre', pre = p ++ pre' → s = pre' ++ ',' :: post → ∃ before t behind,
      us ++ ts = before ++ t :: behind ∧ Stands pre ',' post before t behind ∧
        CommaIs (openCalls calls before) t := by
    rintro pre' rfl hs
    obtain ⟨before, t, behind, rfl, hstands, ht⟩ := h pre' post hs
    refine ⟨us ++ before, t, behind, (List.append_assoc _ _ _).symm, hstands.append hus, ?_⟩
    rwa [hcalls]
  rcases List.append_eq_append_iff.1 heq with ⟨pre', hpre, hs⟩ | ⟨rest, hp, hpost⟩
  · exact hbehind pre' hpre hs
  cases rest with
  | nil =>
    rw [List.append_nil] at hp
    exact hbehind [] (by rw [hp, List.append_nil]) hpost.symm
  | cons c rest =>
    obtain ⟨rfl, rfl⟩ := List.cons.inj hpost
    subst hp
    obtain ⟨t, rfl, htext, hvisible, ht⟩ := hcomma (by simp)
    have hplain := List.filter_eq_self.1 hvisible
    have hpre : visible pre = pre :=
      List.filter_eq_self.2 fun c hc => hplain c (List.mem_append_left _ hc)
    have hrest : visible rest = rest :=
      List.filter_eq_self.2 fun c hc => hplain c (by simp [hc])
    refine ⟨[], t, ts, rfl, ⟨pre, rest, [], visible s, htext, hpre, .nil, ?_, hts⟩, ht⟩
    show visible (rest ++ s) = _
    rw [visible_append, hrest]

/-- The names of functions have no commas. -/
theorem comma_notMem_of_lower (hf : (arity? f).isSome = true)
    (hw : w.map Char.toLower = f.toList) : ',' ∉ w := by
  intro hmem
  have hlower : ',' ∈ f.toList := hw ▸ List.mem_map.2 ⟨',', hmem, by decide⟩
  rcases eq_of_arity hf with rfl | rfl
  · revert hlower; decide
  · revert hlower; decide

/-- **What becomes of the commas of a text.** -/
theorem Cuts.commasPlaced (h : Cuts calls s ts) : CommasPlaced calls s ts := by
  induction h with
  | nil =>
    intro pre post heq
    cases pre <;> cases heq
  | @blank calls c s ts hc hcuts ih =>
    refine commasPlaced_append [c] [] ?_ (fun _ => rfl) ?_ hcuts.spelt ih
    · rw [visible_of_blanks (by simpa using hc)]
      exact .nil
    · intro hcomma
      rw [← List.mem_singleton.1 hcomma] at hc
      exact absurd hc (by decide)
  | opening hcuts ih =>
    refine commasPlaced_append ['('] [.opening] ?_ (fun _ => rfl) (by simp)
      hcuts.spelt ih
    exact spelt_singleton rfl
  | closing hcuts ih =>
    refine commasPlaced_append [')'] [.closing] ?_ (fun _ => rfl) (by simp)
      hcuts.spelt ih
    exact spelt_singleton rfl
  | comma hc hcuts ih =>
    refine commasPlaced_append [','] [.comma] ?_ (fun _ => rfl) ?_ hcuts.spelt ih
    · exact spelt_singleton rfl
    · exact fun _ => ⟨_, rfl, rfl, rfl, commaIs_comma hc⟩
  | op o hcuts ih =>
    refine commasPlaced_append [o.sign] [.op o] ?_ (fun _ => rfl) ?_ hcuts.spelt ih
    · cases o <;> exact spelt_singleton rfl
    · intro hcomma
      exact absurd (List.mem_singleton.1 hcomma).symm (sign_plain o).2.2.2
  | @word calls w s text ts hw ht hcuts ih =>
    have hplain := visible_of_isWordChar hw.isWordChar
    have htext := toList_of_ofWord ht
    refine commasPlaced_append w [.word text] ?_ (fun _ => rfl) ?_ hcuts.spelt ih
    · rw [hplain]
      exact spelt_singleton htext.symm
    · intro hcomma
      -- within a call a word ends before a comma
      have houtside : ¬ calls.head? = some true := by
        have hin := (isWordCharIn_iff.1 (hw.all ',' hcomma)).2
        simpa using hin
      exact ⟨_, rfl, htext, hplain, commaIs_word houtside text⟩
  | @call calls w b s f ts hw ht hf hb hcuts ih =>
    have hlower := lower_of_ofWord ht
    have hpiece : w ++ (b ++ '(' :: s) = (w ++ (b ++ ['('])) ++ s := by simp
    rw [hpiece]
    refine commasPlaced_append _ [.call f, .opening] ?_ (fun _ => rfl) ?_ hcuts.spelt ih
    · rw [visible_append, visible_append, visible_of_isWordChar hw.isWordChar, visible_of_blanks hb]
      exact .cons hlower (spelt_singleton (w := ['(']) rfl)
    · intro hcomma
      simp only [List.mem_append, List.mem_singleton] at hcomma
      rcases hcomma with hcomma | hcomma | hcomma
      · exact absurd hcomma (comma_notMem_of_lower hf hlower)
      · exact absurd (hb _ hcomma) (by decide)
      · exact absurd hcomma (by decide)

/-! ## The tokens of a text -/

/-- **Tokens that are faithful to a text.** -/
structure Faithful (s : List Char) (ts : List Token) : Prop where
  /-- The characters of the tokens are those of the text that are no blanks, but for the case of the
  names of functions. -/
  spelt : Spelt ts (visible s)
  /-- The sign of a negation is not told from that of a subtraction. -/
  unsigned : Token.neg ∉ ts
  /-- The two functions are named right in front of a parenthesis. -/
  applied : ∀ before f behind, ts = before ++ .call f :: behind →
    (f = "root" ∨ f = "sqrt") ∧ behind.head? = some .opening
  /-- A comma divides arguments in the parenthesis of a call, and is a part of a word elsewhere. -/
  commas : ∀ pre post, s = pre ++ ',' :: post → ∃ before t behind, ts = before ++ t :: behind ∧
    Stands pre ',' post before t behind ∧ CommaIs (openCalls [] before) t
  /-- Words are not empty and made of characters of words. -/
  words : ∀ text, .word text ∈ ts → text ≠ "" ∧ ∀ c ∈ text.toList, isWordChar c = true

/-- **The tokens of a text are faithful to it.** -/
theorem faithful_of_scan (h : scan text = .ok ts) : Faithful text.toList ts := by
  have hcuts := scan_eq_ok_iff.1 h
  refine ⟨hcuts.spelt, hcuts.neg_notMem, ?_, hcuts.commasPlaced, fun _ => hcuts.word_mem⟩
  intro before f behind hts
  obtain ⟨hf, hopening⟩ := hcuts.callsApplied.opens hts
  exact ⟨eq_of_arity hf, hopening⟩

/-- A text with a parenthesis that closes nothing, commas of three kinds and a name written large. -/
theorem faithful_of_stray_close :
    scan ") 1,5+ROOT\t(Æ,(,5), 3" = .ok [.closing, .word "1,5", .op .add, .call "root", .opening,
        .word "Æ", .comma, .opening, .word ",5", .closing, .comma, .word "3"] ∧
      Faithful ") 1,5+ROOT\t(Æ,(,5), 3".toList [.closing, .word "1,5", .op .add, .call "root",
        .opening, .word "Æ", .comma, .opening, .word ",5", .closing, .comma, .word "3"] := by
  have h : scan ") 1,5+ROOT\t(Æ,(,5), 3" = .ok [.closing, .word "1,5", .op .add, .call "root",
      .opening, .word "Æ", .comma, .opening, .word ",5", .closing, .comma, .word "3"] := by
    decide +kernel
  exact ⟨h, faithful_of_scan h⟩

end Token

end RadixCalc
