import RadixCalc.Proofs.Composition

/-!
# Lines of words

A line that is a word, with a minus sign in front of it or none, or the quotient of such a word and
another one.

* `Solid`: a text with no blank and no colon, so that nothing is trimmed off it or divides it.
* `Token.cuts_word`: the characters of a word are cut off as one token.
* `Numeral.read_word`: the value of a word.
* `minus`, `signedTokens`, `Expr.signedWord`: a word behind a minus sign or none, as text, as tokens
  and as tree.
* `understood_signedWord`, `understood_quotient`: the trees of the two kinds of lines.
* `yields_signedWord`, `yields_quotient`: their values, when the words can be read.
* `evaluateLine_of_read_error`: a line that is a word which stops it.
-/

namespace RadixCalc

open Text Token Postfix

variable {w w' rest s : List Char} {ts : List Token} {β : Radix} {scope : Scope}
  {x y : Rat} {cx : Context} {text : String} {e : Expr} {i : List Fault} {f : Fault}
  {settings : Settings}

/-! ## Texts in one piece -/

/-- A text with no blank and no colon. -/
def Solid (s : List Char) : Prop :=
  ∀ c ∈ s, isBlank c = false ∧ c ≠ ':'

theorem solid_append : Solid (s ++ rest) ↔ Solid s ∧ Solid rest :=
  List.forall_mem_append

theorem solid_of_isWordChar (hw : ∀ c ∈ w, isWordChar c = true) : Solid w := by
  intro c hc
  refine ⟨isBlank_of_isWordChar (hw c hc), ?_⟩
  rintro rfl
  have hcolon := hw ':' hc
  revert hcolon
  decide +kernel

/-- There is nothing to trim. -/
theorem Solid.trim_eq (h : Solid s) : trim (String.ofList s) = String.ofList s := by
  apply trim_eq_self
  · intro c hc
    rw [String.toList_ofList] at hc
    exact (h c (List.mem_of_mem_head? hc)).1
  · intro c hc
    rw [String.toList_ofList] at hc
    exact (h c (List.mem_of_mem_getLast? hc)).1

/-- There is no `:=` in the text. -/
theorem Solid.plain (h : Solid s) : ¬ [':', '='] <:+: (String.ofList s).toList := by
  rw [String.toList_ofList]
  intro hinside
  exact (h ':' (hinside.subset List.mem_cons_self)).2 rfl

/-! ## Tokens -/

namespace Token

/-- A word that no parenthesis follows is no call. -/
theorem ofWord_of_noCall (h : opens (rest.dropWhile isBlank) = false) (w : List Char) :
    ofWord w rest = .ok (.word (String.ofList w)) := by
  unfold ofWord
  dsimp only
  rw [h, opens_of_dropWhile h]
  rfl

/-- **The characters of a word** are cut off as one token. -/
theorem cuts_word (hne : w ≠ []) (hw : ∀ c ∈ w, isWordChar c = true) (hrest : Stops rest)
    (h : Cuts [] rest ts) : Cuts [] (w ++ rest) (.word (String.ofList w) :: ts) := by
  refine .word ⟨hne, ?_, hrest.noWordIn⟩ (ofWord_of_noCall hrest.noCall w) h
  intro c hc
  exact isWordCharIn_iff.2 ⟨hw c hc, by simp⟩

end Token

/-- **A word is read** as the value of a name or as a numeral: there is nothing to trim. -/
theorem Numeral.read_word (hne : w ≠ []) (hw : ∀ c ∈ w, isWordChar c = true) (β : Radix)
    (scope : Scope) :
    (∀ x, scope.get? (String.ofList w) = some x → read (String.ofList w) β scope = .ok x) ∧
    (scope.get? (String.ofList w) = none → read (String.ofList w) β scope = readChars β w) := by
  have htrim : trim (String.ofList w) = String.ofList w := (solid_of_isWordChar hw).trim_eq
  have hvisible : trim (String.ofList w) ≠ "" := by
    rw [htrim, Ne, ← String.toList_eq_nil_iff, String.toList_ofList]
    exact hne
  constructor
  · intro x hx
    exact read_bound hvisible (by rwa [htrim])
  · intro hfree
    rw [read_eq_readChars hvisible (by rwa [htrim]), htrim, String.toList_ofList]

/-! ## A word behind a sign -/

/-- A minus sign or nothing. -/
def minus (negative : Bool) : List Char :=
  if negative then ['-'] else []

/-- The tokens of a word behind a minus sign or none. -/
def signedTokens (negative : Bool) (w : List Char) : List Token :=
  if negative then [.op .sub, .word (String.ofList w)] else [.word (String.ofList w)]

/-- The tree of a word behind a minus sign or none. -/
def Expr.signedWord (negative : Bool) (w : List Char) : Expr :=
  if negative then .neg (.word (String.ofList w)) else .word (String.ofList w)

theorem solid_minus (negative : Bool) : Solid (minus negative) := by
  cases negative with
  | false => exact List.forall_mem_nil _
  | true => exact List.forall_mem_singleton.2 (by decide)

theorem cuts_minus (negative : Bool) (h : Cuts [] (w ++ rest) (.word (String.ofList w) :: ts)) :
    Cuts [] (minus negative ++ (w ++ rest)) (signedTokens negative w ++ ts) := by
  cases negative with
  | false => exact h
  | true => exact .op .sub h

theorem phrase_word (w : List Char) :
    Phrase .signed [.word (String.ofList w)] (.word (String.ofList w)) :=
  .ofPower (.ofAtom (.word _))

theorem phrase_signedWord (negative : Bool) (w : List Char) :
    Phrase .signed (signedTokens negative w) (.signedWord negative w) := by
  cases negative with
  | false => exact phrase_word w
  | true => exact .minus (phrase_word w)

theorem depth_signedWord_le (negative : Bool) (w : List Char) :
    (Expr.signedWord negative w).depth ≤ 2 := by
  cases negative with
  | false => exact Nat.le_succ 1
  | true => exact Nat.le_refl 2

/-- The negation is of the value of the word. -/
theorem eval_signedWord (negative : Bool)
    (h : Numeral.read (String.ofList w) cx.radix cx.scope = .ok x) :
    (Expr.signedWord negative w).eval cx = .ok (if negative then -x else x, []) := by
  have hword : cx.valueOf (String.ofList w) = .ok (x, []) := by
    unfold Context.valueOf
    rw [h]
  cases negative with
  | false => exact hword
  | true =>
    show (cx.valueOf (String.ofList w) >>= _) = _
    rw [hword]
    rfl

/-- The quotient of two values with no incident, the second of which is not zero. -/
theorem eval_quotient {e f : Expr} (he : e.eval cx = .ok (x, [])) (hf : f.eval cx = .ok (y, []))
    (hy : y ≠ 0) : (Expr.binary .div e f).eval cx = .ok (x / y, []) := by
  have hdiv : Operator.div.apply cx.tolerance x y = .ok (x / y, []) := by
    show Except.ok (if y = 0 then _ else _) = _
    rw [if_neg hy]
  show (e.eval cx >>= _) = _
  rw [he, ok_bind]
  show (f.eval cx >>= _) = _
  rw [hf, ok_bind]
  show (Operator.div.apply cx.tolerance x y >>= _) = _
  rw [hdiv]
  rfl

/-! ## Lines -/

/-- **A word behind a minus sign or none.** -/
theorem understood_signedWord (negative : Bool) (hne : w ≠ []) (hw : ∀ c ∈ w, isWordChar c = true) :
    Understood (String.ofList (minus negative ++ w)) (signedTokens negative w) 0
      (.signedWord negative w) := by
  have hsolid : Solid (minus negative ++ w) :=
    solid_append.2 ⟨solid_minus negative, solid_of_isWordChar hw⟩
  refine ⟨?_, ?_, (depth_signedWord_le negative w).trans (by decide)⟩
  · rw [hsolid.trim_eq, scan_eq_ok_iff, String.toList_ofList]
    have hcuts := cuts_minus negative (cuts_word hne hw stops_nil .nil)
    rwa [List.append_nil, List.append_nil] at hcuts
  · exact toPostfix_eq_of_phrase (.ofProduct (.ofSigned (phrase_signedWord negative w)))

theorem solid_quotient (negative : Bool) (hw : ∀ c ∈ w, isWordChar c = true)
    (hw' : ∀ c ∈ w', isWordChar c = true) : Solid (minus negative ++ (w ++ '/' :: w')) := by
  refine solid_append.2 ⟨solid_minus negative, solid_append.2 ⟨solid_of_isWordChar hw, ?_⟩⟩
  refine List.forall_mem_cons.2 ⟨by decide, solid_of_isWordChar hw'⟩

/-- **The quotient of two words**, the first one behind a minus sign or none. The negation binds
more strongly than the quotient. -/
theorem understood_quotient (negative : Bool) (hne : w ≠ []) (hw : ∀ c ∈ w, isWordChar c = true)
    (hne' : w' ≠ []) (hw' : ∀ c ∈ w', isWordChar c = true) :
    Understood (String.ofList (minus negative ++ (w ++ '/' :: w')))
      (signedTokens negative w ++ [.op .div, .word (String.ofList w')]) 0
      (.binary .div (.signedWord negative w) (.word (String.ofList w'))) := by
  refine ⟨?_, ?_, ?_⟩
  · have hsecond : Cuts [] w' [.word (String.ofList w')] := by
      have h := cuts_word hne' hw' stops_nil .nil
      rwa [List.append_nil] at h
    rw [(solid_quotient negative hw hw').trim_eq, scan_eq_ok_iff, String.toList_ofList]
    exact cuts_minus negative (cuts_word hne hw (stops_sign .div w') (.op .div hsecond))
  · exact toPostfix_eq_of_phrase (.ofProduct (.product (.inr rfl)
      (.ofSigned (phrase_signedWord negative w)) (phrase_word w')))
  · have hdepth := depth_signedWord_le negative w
    have hword : (Expr.word (String.ofList w')).depth = 1 := rfl
    have hmax : Expr.maxDepth = 256 := rfl
    unfold Expr.depth
    omega

/-- A text with a tree and no parenthesis supplied has the value of the tree. -/
theorem Understood.yields (h : Understood text ts 0 e) (hplain : ¬ [':', '='] <:+: text.toList)
    (hs : scope.settings = .ok settings)
    (heval : e.eval ⟨β, scope, settings.tolerance⟩ = .ok (x, i)) : Yields text β scope x i := by
  refine ⟨⟨joined ts, joined e.toPostfix, e.render⟩, ?_⟩
  rw [evaluateLine_of_plain hplain, h.evaluate_eq_ok_iff.2 ⟨settings, x, i, hs, heval, rfl⟩]
  rfl

/-- The value of a line that is a word. -/
theorem yields_signedWord (negative : Bool) (hne : w ≠ []) (hw : ∀ c ∈ w, isWordChar c = true)
    (hs : scope.settings = .ok settings) (hread : Numeral.read (String.ofList w) β scope = .ok x) :
    Yields (String.ofList (minus negative ++ w)) β scope (if negative then -x else x) [] := by
  have hsolid : Solid (minus negative ++ w) :=
    solid_append.2 ⟨solid_minus negative, solid_of_isWordChar hw⟩
  exact (understood_signedWord negative hne hw).yields hsolid.plain hs (eval_signedWord negative hread)

/-- A line that is a word is stopped by the fault that the word is read with, unless that can be
recovered from. -/
theorem evaluateLine_of_read_error (hne : w ≠ []) (hw : ∀ c ∈ w, isWordChar c = true)
    (hs : scope.settings = .ok settings)
    (hread : Numeral.read (String.ofList w) β scope = .error f) (hf : f.isRecoverable = false) :
    evaluateLine (String.ofList w) β scope = (.error f, scope) := by
  have hvalue : Context.valueOf ⟨β, scope, settings.tolerance⟩ (String.ofList w) = .error f := by
    unfold Context.valueOf
    rw [hread]
    exact if_neg (by rw [hf]; exact Bool.false_ne_true)
  have hevaluate : evaluate (String.ofList w) β scope = .error f :=
    (understood_signedWord false hne hw).evaluate_eq_error_iff.2 (.inr ⟨settings, hs, hvalue⟩)
  rw [evaluateLine_of_plain (solid_of_isWordChar hw).plain, hevaluate]

/-- The value of a line that is a quotient of two words. -/
theorem yields_quotient (negative : Bool) (hne : w ≠ []) (hw : ∀ c ∈ w, isWordChar c = true)
    (hne' : w' ≠ []) (hw' : ∀ c ∈ w', isWordChar c = true) (hs : scope.settings = .ok settings)
    (hread : Numeral.read (String.ofList w) β scope = .ok x)
    (hread' : Numeral.read (String.ofList w') β scope = .ok y) (hy : y ≠ 0) :
    Yields (String.ofList (minus negative ++ (w ++ '/' :: w'))) β scope
      ((if negative then -x else x) / y) [] := by
  refine (understood_quotient negative hne hw hne' hw').yields (solid_quotient negative hw hw').plain
    hs ?_
  exact eval_quotient (eval_signedWord negative hread) (eval_signedWord false hread') hy

end RadixCalc
