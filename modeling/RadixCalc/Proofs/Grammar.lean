import Mathlib.Data.List.Chain
import RadixCalc.Expr

/-!
# The grammar of expressions

The sequences of tokens that are expressions, said without any way of reading them.

* `Phrase`: the grammar with one rank of phrases for each strength of operators, so that a sequence
  has one tree.
* `Sentence`: the same sequences by a grammar without ranks, which says what is an expression and
  not how its operators bind.
* `ClosesValues`: every closing parenthesis stands behind a value, as in every sentence.
-/

namespace RadixCalc

/-- The ranks of phrases, the loosest first. -/
inductive Rank where
  /-- Products added and subtracted. -/
  | sum
  /-- Signed phrases multiplied and divided. -/
  | product
  /-- A power behind any number of signs. -/
  | signed
  /-- A base without a sign, with an exponent or none. -/
  | power
  /-- A word, a group or a call. -/
  | atom
deriving DecidableEq

/-- The tokens of a phrase of some rank, and its tree. Sums and products group to the left and
powers to the right; parentheses and plus signs make no node. -/
inductive Phrase : Rank → List Token → Expr → Prop
  | ofProduct {ts e} : Phrase .product ts e → Phrase .sum ts e
  | sum {ts us e f} {o : Operator} (ho : o = .add ∨ o = .sub) :
      Phrase .sum ts e → Phrase .product us f → Phrase .sum (ts ++ .op o :: us) (.binary o e f)
  | ofSigned {ts e} : Phrase .signed ts e → Phrase .product ts e
  | product {ts us e f} {o : Operator} (ho : o = .mul ∨ o = .div) :
      Phrase .product ts e → Phrase .signed us f →
        Phrase .product (ts ++ .op o :: us) (.binary o e f)
  | minus {ts e} : Phrase .signed ts e → Phrase .signed (.op .sub :: ts) (.neg e)
  | plus {ts e} : Phrase .signed ts e → Phrase .signed (.op .add :: ts) e
  | ofPower {ts e} : Phrase .power ts e → Phrase .signed ts e
  | ofAtom {ts e} : Phrase .atom ts e → Phrase .power ts e
  | power {ts us e f} : Phrase .atom ts e → Phrase .signed us f →
      Phrase .power (ts ++ .op .pow :: us) (.binary .pow e f)
  | word (text : String) : Phrase .atom [.word text] (.word text)
  | group {ts e} : Phrase .sum ts e → Phrase .atom (.opening :: ts ++ [.closing]) e
  | sqrt {ts e} : Phrase .sum ts e →
      Phrase .atom (.call "sqrt" :: .opening :: ts ++ [.closing]) (.sqrt e)
  | root {ts us e f} : Phrase .sum ts e → Phrase .sum us f →
      Phrase .atom (.call "root" :: .opening :: ts ++ .comma :: us ++ [.closing]) (.root e f)

/-! ## Sentences -/

/-- The sequences of tokens that are expressions: operators between complete operands, signs before
them, groups that are not empty, and calls with complete arguments. -/
inductive Sentence : List Token → Prop
  | word (text : String) : Sentence [.word text]
  | sign {ts} {o : Operator} (ho : o = .add ∨ o = .sub) : Sentence ts → Sentence (.op o :: ts)
  | binary {ts us} (o : Operator) : Sentence ts → Sentence us → Sentence (ts ++ .op o :: us)
  | group {ts} : Sentence ts → Sentence (.opening :: ts ++ [.closing])
  | sqrt {ts} : Sentence ts → Sentence (.call "sqrt" :: .opening :: ts ++ [.closing])
  | root {ts us} : Sentence ts → Sentence us →
      Sentence (.call "root" :: .opening :: ts ++ .comma :: us ++ [.closing])

/-- A token that ends a value. -/
def Token.endsValue : Token → Bool
  | word _ | closing => true
  | _ => false

/-- No closing parenthesis stands behind an operator, a comma or an opening parenthesis. -/
def ClosesValues (ts : List Token) : Prop :=
  ts.IsChain fun t u => u = .closing → t.endsValue = true

instance (ts : List Token) : Decidable (ClosesValues ts) :=
  inferInstanceAs (Decidable (ts.IsChain _))

theorem closesValues_append {ts us : List Token} :
    ClosesValues (ts ++ us) ↔ ClosesValues ts ∧ ClosesValues us ∧
      ∀ t ∈ ts.getLast?, ∀ u ∈ us.head?, u = .closing → t.endsValue = true :=
  List.isChain_append

/-- What every sentence has in common: it begins with no closing parenthesis, it ends a value, and
its parentheses close values. -/
structure Whole (ts : List Token) : Prop where
  begins : ts.head? ≠ some .closing
  ends : ∃ t ∈ ts.getLast?, t.endsValue = true
  closes : ClosesValues ts

variable {ts us : List Token}

theorem Whole.ne_nil (h : Whole ts) : ts ≠ [] := by
  rintro rfl
  obtain ⟨t, ht, -⟩ := h.ends
  cases ht

theorem Whole.head?_append (h : Whole ts) (us : List Token) : (ts ++ us).head? = ts.head? := by
  cases ts with
  | nil => exact absurd rfl h.ne_nil
  | cons t ts => rfl

theorem Whole.getLast?_append (h : Whole us) (ts : List Token) :
    (ts ++ us).getLast? = us.getLast? :=
  List.getLast?_append_of_ne_nil ts h.ne_nil

theorem Whole.cons {t : Token} (ht : t ≠ .closing) (h : Whole ts) : Whole (t :: ts) := by
  refine ⟨?_, ?_, ?_⟩
  · intro h'
    exact ht (Option.some.inj h')
  · rw [← List.singleton_append, h.getLast?_append]
    exact h.ends
  · refine List.IsChain.cons h.closes ?_
    rintro u hu rfl
    exact absurd hu h.begins

theorem Whole.append (h₁ : Whole ts) (h₂ : Whole us) : Whole (ts ++ us) := by
  refine ⟨?_, ?_, closesValues_append.2 ⟨h₁.closes, h₂.closes, ?_⟩⟩
  · rw [h₁.head?_append]
    exact h₁.begins
  · rw [h₂.getLast?_append]
    exact h₂.ends
  · rintro t - u hu rfl
    exact absurd hu h₂.begins

theorem Whole.close (h : Whole ts) : Whole (ts ++ [.closing]) := by
  obtain ⟨t, ht, hends⟩ := h.ends
  refine ⟨?_, ⟨.closing, List.getLast?_concat, rfl⟩,
    closesValues_append.2 ⟨h.closes, .singleton _, ?_⟩⟩
  · rw [h.head?_append]
    exact h.begins
  · rintro u hu - - -
    rwa [Option.mem_unique hu ht]

/-- **Every sentence is whole.** -/
theorem Sentence.whole (h : Sentence ts) : Whole ts := by
  induction h with
  | word text => exact ⟨nofun, ⟨_, rfl, rfl⟩, .singleton _⟩
  | @sign ts o _ _ ih => exact ih.cons (t := .op o) nofun
  | binary o _ _ ih₁ ih₂ => exact ih₁.append (ih₂.cons (t := .op o) nofun)
  | group _ ih => exact (ih.cons (t := .opening) nofun).close
  | sqrt _ ih =>
    have h := ih.cons (t := .opening) nofun
    exact (h.cons (t := .call "sqrt") nofun).close
  | root _ _ ih₁ ih₂ =>
    have h := ih₁.cons (t := .opening) nofun
    exact ((h.cons (t := .call "root") nofun).append (ih₂.cons (t := .comma) nofun)).close

end RadixCalc
