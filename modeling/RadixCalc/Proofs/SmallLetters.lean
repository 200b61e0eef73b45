import RadixCalc.Proofs.Quotients
import RadixCalc.Text.LowerCase

/-!
# Numerals in small letters

In lower case a numeral has the same length, its digits are the same, and it is still a word.

* `Text.small`, `Text.hasSmall`: the characters that have one small form, wherever they stand.
* `Text.lower_eq_map`, `Text.lower_eq_self`: a text of such characters in lower case.
* `Digit.small_symbol`, `spells_small`: a symbol in lower case is read as its digit.
* `lower_numeral`: a numeral in lower case.
-/

namespace RadixCalc

namespace Text

/-- The small form of a character that has one. -/
def small (c : Char) : Char :=
  (smallForms c).headD c

/-- The small form of the character is one character, whatever stands around it. -/
def hasSmall (c : Char) : Bool :=
  c != 'Σ' && smallForms c == [small c]

theorem lowerOnto_eq_map {s : List Char} (h : ∀ c ∈ s, hasSmall c = true) (done : List Char)
    (inWord : Bool) : lowerOnto done inWord s = done.reverse ++ s.map small := by
  induction s generalizing done inWord with
  | nil => rw [lowerOnto, List.map_nil, List.append_nil]
  | cons c s ih =>
    obtain ⟨hc, hs⟩ := List.forall_mem_cons.1 h
    obtain ⟨hsigma, hforms⟩ := Bool.and_eq_true_iff.1 hc
    rw [lowerOnto, if_neg (by simpa using hsigma), ih hs, eq_of_beq hforms, List.reverse_append,
      List.reverse_reverse, List.append_assoc, List.map_cons]
    rfl

/-- **A text whose characters have small forms**, in lower case. -/
theorem lower_eq_map {s : List Char} (h : ∀ c ∈ s, hasSmall c = true) :
    lower (String.ofList s) = String.ofList (s.map small) := by
  unfold lower
  rw [String.toList_ofList, lowerOnto_eq_map h, List.reverse_nil, List.nil_append]

/-- The character is its own small form. -/
def isSmall (c : Char) : Bool :=
  hasSmall c && small c == c

theorem lower_eq_self {s : List Char} (h : s.all isSmall = true) :
    lower (String.ofList s) = String.ofList s := by
  have hsmall : ∀ c ∈ s, hasSmall c = true ∧ small c = c := fun c hc => by
    simpa [isSmall] using List.all_eq_true.1 h c hc
  rw [lower_eq_map fun c hc => (hsmall c hc).1, List.map_congr_left fun c hc => (hsmall c hc).2,
    List.map_id']

end Text

open Text Expansion

variable {β : Radix} {x : Expansion} {d n : ℕ}

namespace Digit

/-- **A symbol in lower case** is one character of a word, which is a form of the symbol and of no
other. -/
theorem small_symbol (hd : d < count) : hasSmall (symbol d) = true ∧
    isWordChar (small (symbol d)) = true ∧ isSeparator (small (symbol d)) = false ∧
    small (symbol d) ≠ '-' ∧ capital (small (symbol d)) = capital (symbol d) := by
  have h : ∀ d < count, hasSmall (symbol d) = true ∧
      isWordChar (small (symbol d)) = true ∧ isSeparator (small (symbol d)) = false ∧
      small (symbol d) ≠ '-' ∧ capital (small (symbol d)) = capital (symbol d) := by decide +kernel
  exact h d hd

end Digit

/-- The small letters of the symbols. -/
def smallSymbol (d : ℕ) : Char :=
  small (Digit.symbol d)

/-- **Small letters are read as the digits that the symbols are read as.** -/
theorem spells_small : Spells β smallSymbol where
  value? d hd := by
    obtain ⟨-, -, -, -, hcapital⟩ := Digit.small_symbol (hd.trans_le Radix.digitCount_le)
    have hsymbol := (spells_symbol (β := β)).value? d hd
    unfold Digit.value? at hsymbol ⊢
    unfold smallSymbol
    rw [hcapital, hsymbol]
  plain d hd := by
    obtain ⟨-, -, hseparator, hminus, -⟩ := Digit.small_symbol (hd.trans_le Radix.digitCount_le)
    exact ⟨hseparator, hminus⟩

/-- A numeral in small letters is a word. -/
theorem Expansion.Legible.isWordChar_of_mem_small (h : x.Legible β) :
    ∀ c ∈ x.spell smallSymbol, isWordChar c = true :=
  h.forall_mem_spell (P := fun c => isWordChar c = true) (by decide) fun _ hd =>
    (Digit.small_symbol (hd.trans_le Radix.digitCount_le)).2.1

/-- **A numeral in lower case** has the small letters of its symbols. -/
theorem lower_numeral (h : x.Legible β) (negative : Bool) :
    lower (String.ofList (minus negative ++ x.text)) =
      String.ofList (minus negative ++ x.spell smallSymbol) := by
  have hminus : ∀ c ∈ minus negative, hasSmall c = true := by
    cases negative with
    | false => exact List.forall_mem_nil _
    | true => exact List.forall_mem_singleton.2 (by decide +kernel)
  have htext : ∀ c ∈ x.text, hasSmall c = true :=
    h.forall_mem_spell (P := fun c => hasSmall c = true) (by decide +kernel) fun _ hd =>
      (Digit.small_symbol (hd.trans_le Radix.digitCount_le)).1
  have hsign : (minus negative).map small = minus negative := by
    cases negative with
    | false => rfl
    | true => decide +kernel
  have hsmall : x.text.map small = x.spell smallSymbol := by
    have hpoint : small '.' = '.' := by decide +kernel
    unfold text spell
    rw [List.map_append, List.map_map]
    split
    · rfl
    · rw [List.map_cons, hpoint, List.map_map]
      rfl
  rw [lower_eq_map (List.forall_mem_append.2 ⟨hminus, htext⟩), List.map_append, hsign, hsmall]

end RadixCalc
