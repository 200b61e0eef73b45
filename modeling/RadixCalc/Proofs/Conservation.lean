import Mathlib.Algebra.Order.Group.Multiset
import Mathlib.Tactic.Abel
import RadixCalc.Proofs.Isolation

/-!
# Nothing is lost in postfix order

The tokens that stand for something in postfix order are written once each, whatever the tokens are
and whichever way they leave: at a comma, at a closing parenthesis, before an operator, or at the end.

* `Token.meaning`, `Token.meanings`: what tokens stand for in postfix order.
* `Postfix.State.kept`: the tokens written and those that wait, the functions of open calls among them.
* `Postfix.Move.kept_eq`, `Postfix.kept_of_run`: a step and a pass add what their tokens stand for.
* `Postfix.Wordless`, `Postfix.words_of_run`: no word waits, so words are written in their order.
* `Postfix.toPostfix_conserves`: what is written of a whole list.
-/

namespace RadixCalc

/-! ## What tokens stand for -/

namespace Token

/-- A numeral or a name. -/
def isWord : Token → Bool
  | word _ => true
  | _ => false

/-- What a token stands for in postfix order, right behind a value or not: nothing if it is a
parenthesis or a comma. Where no value has ended a plus sign stands for nothing, and a minus sign is
that of a negation. -/
def meaning (valued : Bool) : Token → List Token
  | opening | closing | comma => []
  | op .add => if valued then [op .add] else []
  | op .sub => if valued then [op .sub] else [neg]
  | t => [t]

/-- What tokens stand for in postfix order, in the order in which they come. Whether a sign stands
right behind a value is told by the token before it, and of the first token by `valued`. -/
def meanings (valued : Bool) : List Token → List Token
  | [] => []
  | t :: ts => t.meaning valued ++ meanings t.endsValue ts

/-- Closing parentheses stand for nothing. -/
theorem meanings_replicate (valued : Bool) (k : ℕ) :
    meanings valued (List.replicate k closing) = [] := by
  induction k generalizing valued with
  | zero => rfl
  | succ k ih =>
    rw [List.replicate_succ, meanings, ih]
    rfl

/-- As many parentheses are open behind tokens as before, but for those that they open and close. -/
theorem count_of_nesting {ts : List Token} {n m : ℕ} (h : nesting n ts = some m) :
    m + ts.count closing = n + ts.count opening := by
  induction ts generalizing n with
  | nil =>
    cases h
    rfl
  | cons t ts ih =>
    cases t with
    | closing =>
      cases n with
      | zero => cases h
      | succ n =>
        have hrest : m + ts.count closing = n + ts.count opening := ih h
        simp
        omega
    | opening =>
      have hrest : m + ts.count closing = n + 1 + ts.count opening := ih h
      simp
      omega
    | word | call | op | neg | comma =>
      have hrest : m + ts.count closing = n + ts.count opening := ih h
      simpa using hrest

end Token

namespace Postfix

open State Token

variable {s s' : State} {t : Token} {ts listing : List Token} {k : ℕ} {level : Level}

/-! ## The tokens kept -/

/-- What a level keeps: the tokens that wait, and the function of which it holds the arguments. -/
def Level.kept (level : Level) : Multiset Token :=
  level.waiting + (level.call.map fun call => Token.call call.1).toList

/-- The tokens written and those kept on the levels. -/
def State.kept (s : State) : Multiset Token :=
  s.written + (s.level.kept + (s.outer.map Level.kept).sum)

theorem coe_flushed (s : State) :
    (s.flushed : Multiset Token) = s.level.waiting + s.written := by
  rw [flushed, ← Multiset.coe_add, Multiset.coe_reverse]

theorem Level.kept_of_group (hc : level.call = none) : level.kept = level.waiting := by
  rw [Level.kept, hc]
  exact add_zero _

theorem Level.kept_of_call {f : String} {n : ℕ} (hc : level.call = some (f, n)) :
    level.kept = level.waiting + {.call f} := by
  rw [Level.kept, hc]
  rfl

theorem kept_await (s : State) (t : Token) : (s.await t).kept = s.kept + {t} := by
  simp only [State.kept, Level.kept, await, ← Multiset.cons_coe, ← Multiset.singleton_add]
  abel

/-- A function is kept when its parenthesis opens: it waits no longer, and is that of the level
inside. -/
theorem kept_opened (s : State) : s.opened.kept = s.kept := by
  unfold opened
  split
  · rename_i f waiting hw
    rw [State.kept, State.kept, Level.kept_of_call rfl, List.map_cons, List.sum_cons]
    simp only [Level.kept, hw, ← Multiset.cons_coe, ← Multiset.singleton_add, Multiset.coe_nil]
    abel
  · rw [State.kept, State.kept, Level.kept_of_group rfl, List.map_cons, List.sum_cons,
      Multiset.coe_nil, zero_add]

/-- What waits is only divided where an operator comes behind a part of it. -/
theorem kept_combine (s : State) (o : Operator) : (s.combine o).kept = s.kept + {.op o} := by
  have hsplit : (s.level.waiting : Multiset Token) =
      s.level.waiting.takeWhile (precedes o) + s.level.waiting.dropWhile (precedes o) := by
    rw [Multiset.coe_add, List.takeWhile_append_dropWhile]
  simp only [State.kept, Level.kept, combine, ← Multiset.cons_coe, ← Multiset.singleton_add,
    ← Multiset.coe_add, Multiset.coe_reverse]
  rw [hsplit]
  abel

/-- **A step adds what its token stands for** to the tokens kept, and loses none of them. -/
theorem Move.kept_eq (h : Move s t s') :
    s'.kept = s.kept + (t.meaning s.valued : Multiset Token) := by
  cases h with
  | @word text hv =>
    show ((.word text :: s.written : List Token) : Multiset Token) + _ = s.kept + {.word text}
    rw [State.kept, ← Multiset.cons_coe, ← Multiset.singleton_add]
    abel
  | call hv => exact kept_await s _
  | opening hv =>
    rw [kept_opened]
    exact (add_zero _).symm
  | @comma f n hv hc =>
    -- the function goes over to the level of the next argument
    show (s.flushed : Multiset Token) + (Level.kept ⟨[], some (f, n + 1)⟩ + _) = s.kept + 0
    rw [State.kept, coe_flushed, Level.kept_of_call hc, Level.kept_of_call rfl, Multiset.coe_nil]
    abel
  | @closeGroup level outer hv ho hc =>
    show (s.flushed : Multiset Token) + (level.kept + _) = s.kept + 0
    rw [State.kept, coe_flushed, Level.kept_of_group hc, ho, List.map_cons, List.sum_cons]
    abel
  | @closeCall level outer f n ho hc hn =>
    -- the function is written behind what waits of its last argument
    show ((.call f :: s.flushed : List Token) : Multiset Token) + (level.kept + _) = s.kept + 0
    rw [State.kept, ← Multiset.cons_coe, ← Multiset.singleton_add, coe_flushed,
      Level.kept_of_call hc, ho, List.map_cons, List.sum_cons]
    abel
  | @combine o hv =>
    rw [kept_combine, hv]
    cases o <;> rfl
  | plus hv =>
    rw [hv]
    exact (add_zero _).symm
  | minus hv =>
    rw [hv]
    exact kept_await s _

/-- **A pass adds what its tokens stand for**, whichever way they leave. -/
theorem kept_of_run (h : ts.foldlM step s = .ok s') :
    s'.kept = s.kept + (meanings s.valued ts : Multiset Token) := by
  induction ts generalizing s with
  | nil =>
    cases h
    exact (add_zero _).symm
  | cons t ts ih =>
    rw [List.foldlM_cons] at h
    obtain ⟨s₁, h₁, h₂⟩ := bind_eq_ok_iff.1 h
    have hmove := move_of_step h₁
    -- the token passed tells whether the next one stands behind a value
    rw [ih h₂, hmove.kept_eq, hmove.valued, meanings, ← Multiset.coe_add, add_assoc]

/-! ## The order of words -/

/-- No word waits on any level. -/
def Wordless (s : State) : Prop :=
  ∀ level ∈ s.level :: s.outer, ∀ t ∈ level.waiting, t.isWord = false

theorem Wordless.outer (h : Wordless s) : ∀ level ∈ s.outer, ∀ t ∈ level.waiting, t.isWord = false :=
  (List.forall_mem_cons.1 h).2

theorem wordless_await (h : Wordless s) (ht : t.isWord = false) : Wordless (s.await t) := by
  obtain ⟨hlevel, houter⟩ := List.forall_mem_cons.1 h
  exact List.forall_mem_cons.2 ⟨List.forall_mem_cons.2 ⟨ht, hlevel⟩, houter⟩

theorem wordless_opened (h : Wordless s) : Wordless s.opened := by
  obtain ⟨hlevel, houter⟩ := List.forall_mem_cons.1 h
  unfold opened
  split
  · rename_i f waiting hw
    rw [hw] at hlevel
    have hrest := (List.forall_mem_cons.1 hlevel).2
    exact List.forall_mem_cons.2 ⟨nofun, List.forall_mem_cons.2 ⟨hrest, houter⟩⟩
  · exact List.forall_mem_cons.2 ⟨nofun, h⟩

/-- **A step leaves no word waiting.** -/
theorem Move.wordless (h : Move s t s') (hs : Wordless s) : Wordless s' := by
  obtain ⟨hlevel, houter⟩ := List.forall_mem_cons.1 hs
  cases h with
  | word hv => exact hs
  | call hv => exact wordless_await hs rfl
  | opening hv => exact wordless_opened hs
  | comma hv hc => exact List.forall_mem_cons.2 ⟨nofun, houter⟩
  | closeGroup hv ho hc =>
    rw [ho] at houter
    exact houter
  | closeCall ho hc hn =>
    rw [ho] at houter
    exact houter
  | combine hv =>
    refine List.forall_mem_cons.2 ⟨List.forall_mem_cons.2 ⟨rfl, fun t ht => ?_⟩, houter⟩
    exact hlevel t ((List.dropWhile_sublist _).subset ht)
  | plus hv => exact hs
  | minus hv => exact wordless_await hs rfl

/-- The words written, in the order in which they come out. -/
def State.words (s : State) : List Token :=
  s.written.reverse.filter isWord

/-- What waits is written without a word. -/
theorem words_flushed (h : Wordless s) : s.flushed.reverse.filter isWord = s.words := by
  have hnone : s.level.waiting.filter isWord = [] := by
    rw [List.filter_eq_nil_iff]
    intro t ht
    rw [h _ List.mem_cons_self t ht]
    decide
  rw [reverse_flushed, List.filter_append, hnone, List.append_nil]
  rfl

/-- **A step writes no word but its own token**, behind those written before. -/
theorem Move.words_eq (h : Move s t s') (hs : Wordless s) :
    s'.words = s.words ++ [t].filter isWord := by
  have hflushed := words_flushed hs
  cases h with
  | word hv =>
    rw [State.words, List.reverse_cons, List.filter_append]
    rfl
  | opening hv =>
    unfold opened
    split <;> exact (List.append_nil _).symm
  | comma hv hc => exact hflushed.trans (List.append_nil _).symm
  | closeGroup hv ho hc => exact hflushed.trans (List.append_nil _).symm
  | closeCall ho hc hn =>
    rw [State.words, List.reverse_cons, List.filter_append, hflushed]
    rfl
  | @combine o hv =>
    have hnone : (s.level.waiting.takeWhile (precedes o)).filter isWord = [] := by
      rw [List.filter_eq_nil_iff]
      intro t ht
      rw [hs _ List.mem_cons_self t ((List.takeWhile_sublist _).subset ht)]
      decide
    rw [State.words, State.combine, List.reverse_append, List.reverse_reverse, List.filter_append,
      hnone]
    rfl
  | call hv => exact (List.append_nil _).symm
  | plus hv => exact (List.append_nil _).symm
  | minus hv => exact (List.append_nil _).symm

theorem words_of_run (h : ts.foldlM step s = .ok s') (hs : Wordless s) :
    Wordless s' ∧ s'.words = s.words ++ ts.filter isWord := by
  induction ts generalizing s with
  | nil =>
    cases h
    exact ⟨hs, (List.append_nil _).symm⟩
  | cons t ts ih =>
    rw [List.foldlM_cons] at h
    obtain ⟨s₁, h₁, h₂⟩ := bind_eq_ok_iff.1 h
    have hmove := move_of_step h₁
    obtain ⟨hs', hwords⟩ := ih h₂ (hmove.wordless hs)
    refine ⟨hs', ?_⟩
    rw [hwords, hmove.words_eq hs, List.append_assoc, ← List.filter_append]
    rfl

/-! ## The whole list -/

theorem wordless_start : Wordless start := by
  intro level hlevel t ht
  cases List.mem_singleton.1 hlevel
  cases ht

/-- The words of a listing come in the order in which they stand among the tokens. -/
theorem words_of_toPostfix (h : toPostfix ts = (k, .ok listing)) :
    listing.filter isWord = ts.filter isWord := by
  obtain ⟨s, s', hp⟩ := exists_passed h
  obtain ⟨hs, hwords⟩ := words_of_run hp.run wordless_start
  obtain ⟨hs', hwords'⟩ := words_of_run hp.supplied hs
  have hnone : (List.replicate k closing).filter isWord = [] := by
    rw [List.filter_replicate_of_neg (by decide)]
  rw [hp.written, words_flushed hs', hwords', hwords, hnone, List.append_nil]
  rfl

/-- **Nothing is lost and nothing is written twice**, whatever the tokens are. The words come out in
their order; all that is written is what the tokens stand for, each once; and as many parentheses
are supplied as are opened and not closed. -/
theorem toPostfix_conserves (h : toPostfix ts = (k, .ok listing)) :
    listing.filter isWord = ts.filter isWord ∧
      (listing : Multiset Token) = meanings false ts ∧
      k + ts.count .closing = ts.count .opening := by
  refine ⟨words_of_toPostfix h, ?_, ?_⟩
  · obtain ⟨s, s', hp⟩ := exists_passed h
    have hgroup : s'.level.call = none := hp.ground
    have hkept : s'.kept = s'.flushed := by
      rw [State.kept, Level.kept_of_group hgroup, hp.closed, coe_flushed, List.map_nil,
        List.sum_nil, add_zero, add_comm]
    rw [hp.written, Multiset.coe_reverse, ← hkept, kept_of_run hp.supplied, kept_of_run hp.run,
      meanings_replicate]
    exact (add_zero _).trans (zero_add _)
  · have := count_of_nesting (nesting_of_toPostfix h)
    omega

/-- A function with no parenthesis waits for its operand like a sign; of the two signs in front of
values one is a negation and one is nothing, and two of three parentheses are supplied. -/
theorem toPostfix_conserves_bare_call :
    toPostfix [.call "sqrt", .op .sub, .opening, .opening, .word "2", .closing, .op .sub,
        .call "root", .opening, .word "8", .comma, .op .add, .word "3"] =
      (2, .ok [.word "2", .word "8", .word "3", .call "root", .op .sub, .neg, .call "sqrt"]) ∧
    (([.word "2", .word "8", .word "3", .call "root", .op .sub, .neg, .call "sqrt"] : List Token) :
        Multiset Token) =
      ([.call "sqrt", .neg, .word "2", .op .sub, .call "root", .word "8", .word "3"] : List Token) ∧
    2 + 1 = 3 := by
  have h : toPostfix [.call "sqrt", .op .sub, .opening, .opening, .word "2", .closing, .op .sub,
        .call "root", .opening, .word "8", .comma, .op .add, .word "3"] =
      (2, .ok [.word "2", .word "8", .word "3", .call "root", .op .sub, .neg, .call "sqrt"]) := by
    decide +kernel
  obtain ⟨-, hkept, hcount⟩ := toPostfix_conserves h
  exact ⟨h, hkept, hcount⟩

end Postfix

end RadixCalc
