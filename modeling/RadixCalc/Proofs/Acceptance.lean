import RadixCalc.Proofs.Cutting

/-!
# What is accepted

The tokens that have a postfix order are a sentence once the closing parentheses supplied at their
end are added, except where a call is closed behind no value.

* `Opens`, `Arguments`, `Enclosed`: what has been read before the innermost open parenthesis, one
  case for each kind of parenthesis.
* `Reading`: what has been read, behind a value or where one has to begin.
* `reading_of_move`, `reading_of_run`: one step and a whole pass keep it.
* `sentence_iff_of_scan`: which of the accepted texts are sentences, and the faults of the others.
-/

namespace RadixCalc

namespace Postfix

open State Token

variable {s s' : State} {t : Token} {ts us done args : List Token} {f : String} {k n m : Nat}
  {listing : List Token}

/-! ## Parts of sentences -/

/-- Any sentence behind the tokens makes them one. -/
def Opens (ts : List Token) : Prop :=
  ∀ us, Sentence us → Sentence (ts ++ us)

theorem opens_nil : Opens [] := fun _ h => h

theorem Opens.sign {o : Operator} (h : Opens ts) (ho : o = .add ∨ o = .sub) :
    Opens (ts ++ [.op o]) := by
  intro us hus
  rw [List.append_assoc]
  exact h _ (.sign ho hus)

theorem opens_combine (h : Sentence ts) (o : Operator) : Opens (ts ++ [.op o]) := by
  intro us hus
  rw [List.append_assoc]
  exact .binary o h hus

/-- Arguments of a call, each with the comma behind it, and how many. -/
inductive Arguments : Nat → List Token → Prop
  | none : Arguments 0 []
  | comma {n : Nat} {ts us : List Token} : Arguments n ts → Sentence us →
      Arguments (n + 1) (ts ++ us ++ [.comma])

/-- A call with as many arguments as its function takes is a sentence. -/
theorem sentence_call (hf : arity? f = some (n + 1)) (ha : Arguments n args) (h : Sentence us) :
    Sentence (.call f :: .opening :: (args ++ us) ++ [.closing]) := by
  rcases arity_cases hf with ⟨rfl, hn⟩ | ⟨rfl, hn⟩
  · obtain rfl : n = 1 := Nat.succ.inj hn
    cases ha with
    | comma ha hus =>
      cases ha
      have := Sentence.root hus h
      simpa only [List.cons_append, List.append_assoc, List.nil_append] using this
  · obtain rfl : n = 0 := Nat.succ.inj hn
    cases ha
    exact .sqrt h

/-! ## What has been read -/

/-- The tokens before and at the innermost open parenthesis and, in a call, the arguments that have
ended. The list holds the calls of the levels, innermost first. -/
inductive Enclosed : List (Option (String × Nat)) → List Token → Prop
  | top : Enclosed [none] []
  | group {calls} {ts us : List Token} : Enclosed calls ts → Opens us →
      Enclosed (none :: calls) (ts ++ (us ++ [.opening]))
  | call {calls} {ts us args : List Token} {f : String} {n : Nat} : Enclosed calls ts → Opens us →
      (arity? f).isSome = true → Arguments n args →
      Enclosed (some (f, n) :: calls) (ts ++ (us ++ .call f :: .opening :: args))

/-- **What has been read** is enclosed in the levels of the state, and on the innermost level either
a value has ended or one has to begin that no function waits for. -/
inductive Reading : List Token → State → Prop
  | value {s : State} {ts us : List Token} (hv : s.valued = true) :
      Enclosed s.calls ts → Sentence us → Reading (ts ++ us) s
  | gap {s : State} {ts us : List Token} (hv : s.valued = false)
      (hf : ∀ f, s.level.waiting.head? ≠ some (.call f)) :
      Enclosed s.calls ts → Opens us → Reading (ts ++ us) s

theorem Reading.of_valued (h : Reading done s) (hv : s.valued = true) :
    ∃ ts us, done = ts ++ us ∧ Enclosed s.calls ts ∧ Sentence us := by
  cases h with
  | value _ he hs => exact ⟨_, _, rfl, he, hs⟩
  | gap hv' => rw [hv] at hv'; cases hv'

theorem Reading.of_not_valued (h : Reading done s) (hv : s.valued = false) :
    (∀ f, s.level.waiting.head? ≠ some (.call f)) ∧
      ∃ ts us, done = ts ++ us ∧ Enclosed s.calls ts ∧ Opens us := by
  cases h with
  | value hv' => rw [hv] at hv'; cases hv'
  | gap _ hf he hs => exact ⟨hf, _, _, rfl, he, hs⟩

/-- Behind a parenthesis a value has to begin, whether it is that of a group or of a call. -/
theorem reading_inside {call : Option (String × Nat)} (he : Enclosed (call :: s.calls) done) :
    Reading done (s.inside [] call) := by
  have h := Reading.gap (s := s.inside [] call) rfl nofun he opens_nil
  rwa [List.append_nil] at h

/-- A value closed inside a parenthesis is a value, or makes one with what stands before it. -/
theorem reading_close {level : Level} {outer : List Level} (hr : Reading done s)
    (hv : s.valued = true) (ho : s.outer = level :: outer) (hs' : s'.valued = true)
    (hc : s'.calls = (level :: outer).map Level.call)
    (hn : ∀ f n, s.level.call = some (f, n) → n + 1 = (arity? f).getD 0) :
    Reading (done ++ [.closing]) s' := by
  obtain ⟨ts, us, rfl, he, hus⟩ := hr.of_valued hv
  -- what encloses the level that is closed tells what the value becomes a part of
  unfold State.calls at he
  rw [ho, ← hc] at he
  generalize hcall : s.level.call = call at he
  cases he with
  | @group _ ts vs he hvs =>
    have h := hvs _ (.group hus)
    have := Reading.value hs' he h
    simpa only [List.append_assoc, List.cons_append, List.nil_append] using this
  | @call _ ts vs args f n he hvs hf ha =>
    have harity : arity? f = some (n + 1) := by
      obtain ⟨m, hm⟩ := Option.isSome_iff_exists.1 hf
      have := hn f n hcall
      rw [hm] at this ⊢
      rw [this]
      rfl
    have h := hvs _ (sentence_call harity ha hus)
    have := Reading.value hs' he h
    simpa only [List.append_assoc, List.cons_append, List.nil_append] using this

/-- **One step** over a token that names no function, and closes no parenthesis but behind a
value. -/
theorem reading_of_move (hr : Reading done s) (hm : Move s t s') (ht : ∀ f, t ≠ .call f)
    (hclose : t = .closing → s.valued = true) : Reading (done ++ [t]) s' := by
  cases hm with
  | @word text hv =>
    obtain ⟨-, ts, us, rfl, he, hus⟩ := hr.of_not_valued hv
    rw [List.append_assoc]
    exact .value rfl he (hus _ (.word text))
  | call => exact absurd rfl (ht _)
  | opening hv =>
    obtain ⟨hf, ts, us, rfl, he, hus⟩ := hr.of_not_valued hv
    rw [opened_eq hf, List.append_assoc]
    exact reading_inside (.group he hus)
  | @comma f n hv hc =>
    obtain ⟨ts, us, rfl, he, hus⟩ := hr.of_valued hv
    unfold State.calls at he
    rw [hc] at he
    cases he with
    | @call _ ts vs args _ _ he hvs hf ha =>
      have h := Enclosed.call he hvs hf (ha.comma hus)
      have := Reading.gap (s := ⟨s.flushed, ⟨[], some (f, n + 1)⟩, s.outer, false⟩) rfl nofun h
        opens_nil
      simpa only [List.append_assoc, List.cons_append, List.append_nil] using this
  | closeGroup hv ho hc => exact reading_close hr hv ho rfl rfl (by rw [hc]; nofun)
  | closeCall ho hc hn =>
    have hv := hclose rfl
    rw [if_pos hv] at hn
    refine reading_close hr hv ho rfl rfl ?_
    intro f n hc'
    rw [hc] at hc'
    cases hc'
    exact hn
  | @combine o hv =>
    obtain ⟨ts, us, rfl, he, hus⟩ := hr.of_valued hv
    rw [List.append_assoc]
    exact .gap rfl nofun he (opens_combine hus o)
  | plus hv =>
    obtain ⟨hf, ts, us, rfl, he, hus⟩ := hr.of_not_valued hv
    rw [List.append_assoc]
    exact .gap hv hf he (hus.sign (.inl rfl))
  | minus hv =>
    obtain ⟨-, ts, us, rfl, he, hus⟩ := hr.of_not_valued hv
    rw [List.append_assoc]
    exact .gap rfl nofun he (hus.sign (.inr rfl))

/-- The name of a function and its parenthesis are read together. -/
theorem reading_call (hr : Reading done s) (hv : s.valued = false)
    (hf : (arity? f).isSome = true) :
    Reading (done ++ [.call f, .opening]) (s.inside [] (some (f, 0))) := by
  obtain ⟨-, ts, us, rfl, he, hus⟩ := hr.of_not_valued hv
  rw [List.append_assoc]
  exact reading_inside (.call he hus hf .none)

theorem closesValues_cons : ClosesValues (t :: ts) ↔
    (∀ u ∈ ts.head?, u = .closing → t.endsValue = true) ∧ ClosesValues ts :=
  List.isChain_cons

/-- **A whole pass** over tokens that call functions only where their arguments begin, and close
parentheses only behind values. -/
theorem reading_of_run (hts : CallsApplied ts) : ∀ {done s}, Reading done s → ClosesValues ts →
    (ts.head? = some .closing → s.valued = true) → ts.foldlM step s = .ok s' →
    Reading (done ++ ts) s' := by
  induction hts with
  | nil =>
    intro done s hr _ _ hrun
    cases hrun
    rwa [List.append_nil]
  | @call f ts hf _ ih =>
    -- between the name and its parenthesis nothing could be read, so the two steps are one
    intro done s hr hc _ hrun
    rw [List.foldlM_cons] at hrun
    obtain ⟨s₁, h₁, h₂⟩ := bind_eq_ok_iff.1 hrun
    obtain ⟨s₂, h₂, h₃⟩ := bind_eq_ok_iff.1 h₂
    cases move_of_step h₁ with
    | call hv =>
      cases h₂
      obtain ⟨-, hc⟩ := closesValues_cons.1 hc
      obtain ⟨hhead, hc⟩ := closesValues_cons.1 hc
      have := ih (reading_call hr hv hf) hc (fun h => absurd (hhead _ h rfl) nofun) h₃
      rwa [List.append_assoc] at this
  | @cons t ts ht _ ih =>
    intro done s hr hc hhead hrun
    rw [List.foldlM_cons] at hrun
    obtain ⟨s₁, h₁, h₂⟩ := bind_eq_ok_iff.1 hrun
    obtain ⟨hnext, hc⟩ := closesValues_cons.1 hc
    have hm := move_of_step h₁
    -- the token before a closing parenthesis tells whether a value has ended
    have hr₁ := reading_of_move hr hm ht fun h => hhead (by rw [h]; rfl)
    have := ih hr₁ hc (fun h => by rw [hm.valued]; exact hnext _ h rfl) h₂
    rwa [List.append_assoc] at this

/-! ## What is accepted -/

theorem closesValues_replicate (k : Nat) : ClosesValues (List.replicate k .closing) := by
  induction k with
  | zero => exact .nil
  | succ k ih =>
    rw [List.replicate_succ, closesValues_cons]
    exact ⟨fun _ _ _ => rfl, ih⟩

theorem callsApplied_replicate (k : Nat) : CallsApplied (List.replicate k .closing) := by
  induction k with
  | zero => exact .nil
  | succ k ih => exact .cons nofun ih

/-- The tokens accepted, with the parentheses supplied, are a sentence when parentheses close
values. -/
theorem sentence_of_toPostfix (hts : CallsApplied ts) (hne : ts ≠ []) (hc : ClosesValues ts)
    (h : toPostfix ts = (k, .ok listing)) : Sentence (ts ++ List.replicate k .closing) := by
  obtain ⟨s, s', hp⟩ := exists_passed h
  have hstart : Reading [] start := @Reading.gap start [] [] rfl nofun .top opens_nil
  have hhead : ts.head? = some .closing → start.valued = true := by
    intro hhead
    cases ts with
    | nil => cases hhead
    | cons t ts =>
      have hrun := hp.run
      cases hhead
      cases hrun
  have hr := reading_of_run hts hstart hc hhead hp.run
  have hr' := reading_of_run (callsApplied_replicate k) hr (closesValues_replicate k)
    (fun _ => hp.valued hne) hp.supplied
  -- all levels are closed, so nothing stands before the sentence
  obtain ⟨before, us, heq, he, hus⟩ := hr'.of_valued (hp.ends hne)
  unfold State.calls at he
  rw [hp.closed] at he
  rw [List.nil_append] at heq
  generalize s'.level.call = call at he
  cases he with
  | top => rwa [heq]
  | group he => cases he
  | call he => cases he

/-- **What is accepted.** When the tokens of a text have a postfix order, they are a sentence with
the closing parentheses that have been supplied, unless there are none at all or a parenthesis
closes no value; when they have none, they are refused. -/
theorem sentence_iff_of_scan {text : String} (hs : Token.scan text = .ok ts) :
    (∀ k listing, toPostfix ts = (k, .ok listing) →
      (Sentence (ts ++ List.replicate k .closing) ↔ ts ≠ [] ∧ ClosesValues ts)) ∧
    ∀ k fault, toPostfix ts = (k, .error fault) → Refusal fault := by
  refine ⟨?_, fun k fault h => refusal_of_toPostfix h⟩
  intro k listing h
  constructor
  · intro hsent
    have hw := hsent.whole
    refine ⟨?_, (closesValues_append.1 hw.closes).1⟩
    rintro rfl
    cases h
    exact hw.ne_nil rfl
  · rintro ⟨hne, hc⟩
    exact sentence_of_toPostfix (scan_eq_ok_iff.1 hs).callsApplied hne hc h

/-- Two parentheses are supplied behind `-(2^root(8, 3`. -/
theorem sentence_of_open_call :
    Token.scan "-(2^root(8, 3" = .ok [.op .sub, .opening, .word "2", .op .pow, .call "root",
        .opening, .word "8", .comma, .word "3"] ∧
      toPostfix [.op .sub, .opening, .word "2", .op .pow, .call "root", .opening, .word "8", .comma,
        .word "3"] = (2, .ok [.word "2", .word "8", .word "3", .call "root", .op .pow, .neg]) ∧
      Sentence [.op .sub, .opening, .word "2", .op .pow, .call "root", .opening, .word "8", .comma,
        .word "3", .closing, .closing] := by
  have hs : Token.scan "-(2^root(8, 3" = .ok [.op .sub, .opening, .word "2", .op .pow, .call "root",
      .opening, .word "8", .comma, .word "3"] := by decide +kernel
  have h : toPostfix [.op .sub, .opening, .word "2", .op .pow, .call "root", .opening, .word "8",
      .comma, .word "3"] =
        (2, .ok [.word "2", .word "8", .word "3", .call "root", .op .pow, .neg]) := by
    decide +kernel
  exact ⟨hs, h, ((sentence_iff_of_scan hs).1 2 _ h).2 ⟨nofun, by decide⟩⟩

/-- A call is closed without a look at what its last argument ends with: in `sqrt(2,3+)` an
operator is accepted that has nothing on its right, and the argument of the root is the sum of what
the comma divides. -/
theorem not_sentence_of_closed_operator :
    Token.scan "sqrt(2,3+)" =
        .ok [.call "sqrt", .opening, .word "2", .comma, .word "3", .op .add, .closing] ∧
      toPostfix [.call "sqrt", .opening, .word "2", .comma, .word "3", .op .add, .closing] =
        (0, .ok [.word "2", .word "3", .op .add, .call "sqrt"]) ∧
      ¬ Sentence [.call "sqrt", .opening, .word "2", .comma, .word "3", .op .add, .closing] := by
  refine ⟨by decide +kernel, by decide +kernel, ?_⟩
  intro h
  have hc := h.whole.closes
  revert hc
  decide

end Postfix

end RadixCalc
