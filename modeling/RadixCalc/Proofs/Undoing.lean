import Mathlib.Data.List.DropRight
import Mathlib.Logic.Function.Iterate
import RadixCalc.Keypad

/-!
# Taking back what was pressed

`DEL` takes off whole what any other button but that of `pi` puts behind a text, whatever the text
is. The spaces at the end of the text are not given back, since a button may put a space in front of
its symbol or take the place of the ones there.

* `Keypad.base`, `dropSpaces_insert`, `dropSpaces_base`: the text that a symbol is put right behind.
* `deleteLast_composite`, `deleteLast_concat`: what is taken off.
* `Keypad.Removable`: the symbols of which nothing is left.
* `Removable.deleteLast_insert`, `deleteLast_insert_pi`: such a symbol is taken off whole, and `pi` is
  not.
* `Calculator.undoable_of_mem_buttons`: the symbols of the buttons.
* `Calculator.del_undoes_presses`: as many symbols are taken back as were put.
* `Calculator.del_undoes_press`: what `DEL` does right behind a button, and when it is repeated.
-/

namespace RadixCalc

namespace Keypad

variable {placement : Placement} {symbol t u : List Char} {c : Char}

/-! ## The spaces at the end -/

theorem dropSpaces_concat_space (t : List Char) : dropSpaces (t ++ [' ']) = dropSpaces t :=
  List.rdropWhile_concat_pos _ _ _ rfl

theorem dropSpaces_concat (hc : c ≠ ' ') (t : List Char) : dropSpaces (t ++ [c]) = t ++ [c] :=
  List.rdropWhile_concat_neg _ _ _ (by simpa using hc)

theorem dropSpaces_dropSpaces (t : List Char) : dropSpaces (dropSpaces t) = dropSpaces t :=
  List.rdropWhile_idempotent _ t

theorem mem_of_mem_dropSpaces (h : c ∈ dropSpaces t) : c ∈ t :=
  (List.rdropWhile_prefix (· == ' ') t).subset h

theorem ne_space_of_dropSpaces (h : dropSpaces t = [c]) : c ≠ ' ' := by
  rintro rfl
  have hspaces := dropSpaces_dropSpaces t
  rw [h] at hspaces
  exact absurd hspaces (by decide)

theorem length_dropSpaces_le (t : List Char) : (dropSpaces t).length ≤ t.length :=
  (List.rdropWhile_prefix (· == ' ') t).length_le

theorem dropSpaces_spaceAfter (last : Option Char) (t : List Char) :
    dropSpaces (spaceAfter last t) = dropSpaces t := by
  unfold spaceAfter
  split
  · exact dropSpaces_concat_space t
  · rfl

/-- Only the spaces behind the last other character are at the end. -/
theorem dropSpaces_append (h : dropSpaces symbol ≠ []) (t : List Char) :
    dropSpaces (t ++ symbol) = t ++ dropSpaces symbol := by
  induction symbol using List.reverseRecOn with
  | nil => exact absurd rfl h
  | append_singleton symbol c ih =>
    rw [← List.append_assoc]
    by_cases hc : c = ' '
    · subst hc
      rw [dropSpaces_concat_space] at h ⊢
      rw [dropSpaces_concat_space]
      exact ih h
    · rw [dropSpaces_concat hc, dropSpaces_concat hc, List.append_assoc]

/-! ## What is taken off -/

theorem deleteLast_dropSpaces (t : List Char) : deleteLast (dropSpaces t) = deleteLast t := by
  unfold deleteLast
  rw [dropSpaces_dropSpaces]

/-- The spaces at the end make no difference to what is left. -/
theorem deleteLast_congr (h : dropSpaces t = dropSpaces u) : deleteLast t = deleteLast u := by
  rw [← deleteLast_dropSpaces t, h, deleteLast_dropSpaces]

theorem dropSpaces_composite : ∀ symbol ∈ composites, dropSpaces symbol = symbol := by decide

theorem eq_of_composite_suffix :
    ∀ symbol ∈ composites, ∀ other ∈ composites, symbol <:+ other → symbol = other := by decide

/-- **A composite symbol is taken off whole.** -/
theorem deleteLast_composite (h : symbol ∈ composites) (t : List Char) :
    deleteLast (t ++ symbol) = t := by
  have hsymbol : dropSpaces symbol = symbol := dropSpaces_composite symbol h
  have hne : dropSpaces symbol ≠ [] := by
    rw [hsymbol]
    rintro rfl
    exact absurd h (by decide)
  have hfind : composites.find? (·.isSuffixOf (t ++ symbol)) = some symbol := by
    cases hfound : composites.find? (·.isSuffixOf (t ++ symbol)) with
    | none =>
      have hnone := List.find?_eq_none.1 hfound symbol h
      exact absurd (List.isSuffixOf_iff_suffix.2 (List.suffix_append t symbol)) hnone
    | some other =>
      -- of two symbols that end the text one ends the other
      have hmem := List.mem_of_find?_eq_some hfound
      have hend : other <:+ t ++ symbol :=
        List.isSuffixOf_iff_suffix.1 (by simpa only using List.find?_some hfound)
      rcases List.suffix_or_suffix_of_suffix hend (List.suffix_append t symbol) with hs | hs
      · rw [eq_of_composite_suffix other hmem symbol h hs]
      · rw [eq_of_composite_suffix symbol h other hmem hs]
  unfold deleteLast
  rw [dropSpaces_append hne, hsymbol]
  simp only [hfind]
  rw [List.length_append, Nat.add_sub_cancel, List.take_left]

/-- **A character is taken off alone** if no composite symbol ends in it there. -/
theorem deleteLast_concat (hc : c ≠ ' ') (h : ∀ symbol ∈ composites, ¬symbol <:+ t ++ [c]) :
    deleteLast (t ++ [c]) = t := by
  have hnone : composites.find? (·.isSuffixOf (t ++ [c])) = none :=
    List.find?_eq_none.2 fun symbol hmem => by
      simpa only [List.isSuffixOf_iff_suffix] using h symbol hmem
  unfold deleteLast
  rw [dropSpaces_concat hc]
  simp only [hnone]
  exact List.dropLast_concat

/-- The composite symbols end in an opening parenthesis behind a `t`, or in `=`. -/
theorem composite_ending : ∀ symbol ∈ composites,
    symbol.getLast? = some '=' ∨
      symbol.getLast? = some '(' ∧ symbol.dropLast.getLast? = some 't' := by decide

theorem not_composite_suffix (hopening : c = '(' → t.getLast? ≠ some 't') (hequals : c ≠ '=') :
    ∀ symbol ∈ composites, ¬symbol <:+ t ++ [c] := by
  intro symbol hmem hend
  obtain rfl | ⟨front, rfl, hfront⟩ := List.suffix_concat_iff.1 hend
  · exact absurd hmem (by decide)
  have hlast := composite_ending _ hmem
  rw [List.getLast?_concat, List.dropLast_concat] at hlast
  obtain hc | ⟨hc, ht⟩ := hlast
  · exact hequals (Option.some.inj hc)
  · obtain ⟨rest, rfl⟩ := hfront
    exact hopening (Option.some.inj hc) (by rw [List.getLast?_append, ht]; rfl)

/-- Something is taken off a text that is not empty. -/
theorem length_deleteLast_lt (h : t ≠ []) : (deleteLast t).length < t.length := by
  have hle := length_dropSpaces_le t
  have hpos := List.length_pos_iff.2 h
  unfold deleteLast
  dsimp only
  split
  · rename_i symbol hfound
    have hmem := List.mem_of_find?_eq_some hfound
    have hsymbol : ∀ s ∈ composites, 0 < s.length := by decide
    have hsymbol := hsymbol symbol hmem
    rw [List.length_take]
    omega
  · rw [List.length_dropLast]
    omega

/-- Taking symbols off does not tell texts apart that differ in the spaces at the end. -/
theorem iterate_deleteLast_congr (h : dropSpaces t = dropSpaces u) (n : ℕ) :
    dropSpaces (deleteLast^[n] t) = dropSpaces (deleteLast^[n] u) := by
  cases n with
  | zero => exact h
  | succ n =>
    rw [Function.iterate_succ_apply, Function.iterate_succ_apply, deleteLast_congr h]

/-- As many deletions as there are characters leave nothing. -/
theorem iterate_deleteLast_eq_nil {n : ℕ} (h : t.length ≤ n) : deleteLast^[n] t = [] := by
  induction n generalizing t with
  | zero => exact List.length_eq_zero_iff.1 (Nat.le_zero.1 h)
  | succ n ih =>
    rw [Function.iterate_succ_apply]
    refine ih ?_
    by_cases hne : t = []
    · subst hne
      exact Nat.zero_le n
    · have := length_deleteLast_lt hne
      omega

/-! ## What a symbol is put behind -/

/-- The text that a symbol is put right behind. -/
def base (placement : Placement) (t : List Char) : List Char :=
  match placement with
  | .digit => t
  | .word => spaceAfter t.getLast? t
  | .opening => spaceAfter (t.reverse.find? (!Text.isBlank ·)) t
  | .closing => dropSpaces t
  | .operator => if (dropSpaces t).isEmpty then dropSpaces t else dropSpaces t ++ [' ']

theorem dropSpaces_insert (placement : Placement) (symbol t : List Char) :
    dropSpaces (insert placement symbol t) = dropSpaces (base placement t ++ symbol) := by
  cases placement with
  | operator => exact dropSpaces_concat_space _
  | digit | word | opening | closing => rfl

/-- A symbol is put behind the text, but for spaces at its end. -/
theorem dropSpaces_base (placement : Placement) (t : List Char) :
    dropSpaces (base placement t) = dropSpaces t := by
  cases placement with
  | digit => rfl
  | word | opening => exact dropSpaces_spaceAfter _ t
  | closing => exact dropSpaces_dropSpaces t
  | operator =>
    unfold base
    dsimp only
    split
    · exact dropSpaces_dropSpaces t
    · rw [dropSpaces_concat_space, dropSpaces_dropSpaces]

/-- An opening parenthesis is kept apart from a word, so that it makes no composite symbol. -/
theorem getLast?_base_opening (t : List Char) : (base .opening t).getLast? ≠ some 't' := by
  unfold base spaceAfter
  dsimp only
  split
  · rw [List.getLast?_concat]
    decide
  · rename_i hvalue
    intro hlast
    obtain ⟨front, rfl⟩ := List.getLast?_eq_some_iff.1 hlast
    have hblank : Text.isBlank 't' = false := by decide
    -- the letter is the last character that is no blank
    have hfind : (front ++ ['t']).reverse.find? (!Text.isBlank ·) = some 't' := by
      rw [List.reverse_append, List.reverse_singleton, List.singleton_append, List.find?_cons,
        hblank]
      rfl
    rw [hfind] at hvalue
    exact hvalue (by decide +kernel)

/-! ## The symbols that are taken off whole -/

/-- **The symbols of which nothing is left** when they are taken off, wherever they are put: a
composite one, a character that ends no composite one, and an opening parenthesis that is kept apart
from the word before it. -/
def Removable (placement : Placement) (symbol : List Char) : Prop :=
  symbol ∈ composites ∨
    (dropSpaces symbol).length = 1 ∧ '(' ∉ symbol ∧ '=' ∉ symbol ∨
    placement = .opening ∧ symbol = ['(']

instance : Decidable (Removable placement symbol) :=
  inferInstanceAs (Decidable (_ ∨ _ ∨ _))

theorem removable_singleton (hspace : c ≠ ' ') (hopening : c ≠ '(') (hequals : c ≠ '=') :
    Removable placement [c] := by
  refine .inr (.inl ⟨?_, ?_, ?_⟩)
  · exact congrArg List.length (dropSpaces_concat hspace [])
  · exact mt List.mem_singleton.1 hopening.symm
  · exact mt List.mem_singleton.1 hequals.symm

/-- **Such a symbol is taken off whole**, and what is left is the text that it was put behind. -/
theorem Removable.deleteLast_insert (h : Removable placement symbol) (t : List Char) :
    deleteLast (insert placement symbol t) = base placement t := by
  rw [deleteLast_congr (dropSpaces_insert placement symbol t)]
  obtain hcomposite | ⟨hlength, hopening, hequals⟩ | ⟨rfl, rfl⟩ := h
  · exact deleteLast_composite hcomposite _
  · obtain ⟨c, hsymbol⟩ := List.length_eq_one_iff.1 hlength
    have hmem : c ∈ symbol := mem_of_mem_dropSpaces (hsymbol ▸ List.mem_singleton_self c)
    have hput : dropSpaces (base placement t ++ symbol) = base placement t ++ [c] := by
      rw [dropSpaces_append (by simp [hsymbol]), hsymbol]
    rw [← deleteLast_dropSpaces, hput]
    refine deleteLast_concat (ne_space_of_dropSpaces hsymbol) (not_composite_suffix ?_ ?_)
    · rintro rfl
      exact absurd hmem hopening
    · rintro rfl
      exact hequals hmem
  · exact deleteLast_concat (by decide)
      (not_composite_suffix (fun _ => getLast?_base_opening t) (by decide))

/-- Of the word `pi` only its last letter is taken off. -/
theorem deleteLast_insert_pi (t : List Char) :
    deleteLast (insert .word ['p', 'i'] t) = base .word t ++ ['p'] := by
  have hput : insert .word ['p', 'i'] t = base .word t ++ ['p'] ++ ['i'] := by
    rw [List.append_assoc]
    rfl
  rw [hput]
  exact deleteLast_concat (by decide)
    (not_composite_suffix (fun h => absurd h (by decide)) (by decide))

end Keypad

open Keypad

/-! ## The buttons -/

namespace Button

/-- The button that takes the last symbol off. -/
def del : Button := ⟨"DEL", .delete⟩

/-- A button that puts a symbol into the field. -/
def Inserts (b : Button) : Prop :=
  ∃ placement symbol, b.action = .insert placement symbol

/-- A button that puts nothing into the field or a symbol that is taken off whole. -/
def Undoable (b : Button) : Prop :=
  match b.action with
  | .insert placement symbol => Removable placement symbol.toList
  | _ => True

instance : DecidablePred Undoable
  | ⟨_, .insert placement symbol⟩ => inferInstanceAs (Decidable (Removable placement symbol.toList))
  | ⟨_, .clear⟩ | ⟨_, .delete⟩ | ⟨_, .command⟩ | ⟨_, .run⟩ | ⟨_, .panel⟩ => .isTrue trivial

theorem undoable_of_mem_fixed : ∀ b ∈ fixed, b.label ≠ "pi" → b.Undoable := by decide +kernel

theorem undoable_point : (symbol .digit ".").Undoable := by decide

/-- The symbols of the digits are letters and figures. -/
theorem undoable_digit {d : Char} (hd : d ∈ Digit.symbols) :
    (symbol .digit d.toString).Undoable := by
  have hother : ∀ c ∉ Digit.symbols, d ≠ c := fun c hc h => hc (h ▸ hd)
  have hremovable : Removable .digit [d] :=
    removable_singleton (hother ' ' (by decide)) (hother '(' (by decide)) (hother '=' (by decide))
  have htext : d.toString.toList = [d] := String.toList_singleton d
  rwa [← htext] at hremovable

end Button

namespace Calculator

variable {c : Calculator} {b : Button}

theorem del_mem_buttons (c : Calculator) : .del ∈ c.buttons :=
  List.mem_append_left _ (List.mem_append_left _ (by decide))

/-- **Nothing is left of what a button puts into the field**, but for the word `pi`. -/
theorem undoable_of_mem_buttons (hb : b ∈ c.buttons) (hpi : b.label ≠ "pi") : b.Undoable := by
  unfold buttons at hb
  rw [List.mem_append, List.mem_append, List.mem_map] at hb
  obtain (hb | ⟨d, hd, rfl⟩) | hb := hb
  · exact Button.undoable_of_mem_fixed b hb hpi
  · exact Button.undoable_digit (List.mem_of_mem_take hd)
  · rw [List.mem_cons, List.mem_singleton] at hb
    obtain rfl | rfl := hb
    · exact Button.undoable_point
    · exact trivial

/-! ## Pressing the buttons -/

@[simp] theorem toList_entry_del (c : Calculator) :
    (c.press .del).entry.toList = deleteLast c.entry.toList :=
  String.toList_ofList

theorem toList_entry_iterate_del (n : ℕ) (c : Calculator) :
    ((·.press .del)^[n] c).entry.toList = deleteLast^[n] c.entry.toList := by
  induction n generalizing c with
  | zero => rfl
  | succ n ih => rw [Function.iterate_succ_apply, ih, toList_entry_del, Function.iterate_succ_apply]

/-- `DEL` gives back the calculator as it was, but for spaces at the end of the field. -/
theorem exists_del_press (hinserts : b.Inserts) (hundoable : b.Undoable) (c : Calculator) :
    ∃ t, dropSpaces t = dropSpaces c.entry.toList ∧
      (c.press b).press .del = { c with entry := String.ofList t, wantsFocus := true } := by
  obtain ⟨placement, symbol, haction⟩ := hinserts
  have hremovable : Removable placement symbol.toList := by
    unfold Button.Undoable at hundoable
    rwa [haction] at hundoable
  refine ⟨base placement c.entry.toList, dropSpaces_base placement _, ?_⟩
  have hpress : c.press b = { c with
      entry := String.ofList (insert placement symbol.toList c.entry.toList)
      wantsFocus := true } := by
    unfold press
    rw [haction]
  have hdelete := hremovable.deleteLast_insert c.entry.toList
  rw [hpress, ← hdelete, press, Button.del]
  simp only [String.toList_ofList]

/-- **As many symbols are taken back as were put**: any number of buttons and `DEL` as many times
leave the field as it was, but for the spaces at its end. -/
theorem del_undoes_presses {bs : List Button} (h : ∀ b ∈ bs, b.Inserts ∧ b.Undoable)
    (c : Calculator) : dropSpaces ((·.press .del)^[bs.length] (bs.foldl press c)).entry.toList =
      dropSpaces c.entry.toList := by
  induction bs using List.reverseRecOn with
  | nil => rfl
  | append_singleton bs b ih =>
    obtain ⟨hinserts, hundoable⟩ := h b (by simp)
    obtain ⟨t, ht, hdel⟩ := exists_del_press hinserts hundoable (bs.foldl press c)
    have ih := ih fun b hb => h b (List.mem_append_left _ hb)
    rw [toList_entry_iterate_del] at ih ⊢
    rw [List.foldl_append, List.foldl_cons, List.foldl_nil, List.length_append,
      List.length_singleton, Function.iterate_succ_apply, ← toList_entry_del, hdel, ← ih]
    exact iterate_deleteLast_congr (by rw [String.toList_ofList, ht]) _

/-- **`DEL` takes a symbol back**, and pressed often enough it empties the field. -/
theorem del_undoes_press (c : Calculator) :
    .del ∈ c.buttons ∧
    (∀ b ∈ c.buttons, b.Inserts → b.label ≠ "pi" →
      ∃ t, dropSpaces t = dropSpaces c.entry.toList ∧
        (c.press b).press .del = { c with entry := String.ofList t, wantsFocus := true }) ∧
    (c.entry ≠ "" → (c.press .del).entry.length < c.entry.length) ∧
    ∀ n, c.entry.length ≤ n → ((·.press .del)^[n] c).entry = "" := by
  refine ⟨c.del_mem_buttons, ?_, ?_, ?_⟩
  · intro b hb hinserts hpi
    exact exists_del_press hinserts (undoable_of_mem_buttons hb hpi) c
  · intro hentry
    rw [← String.length_toList, ← String.length_toList, toList_entry_del]
    exact length_deleteLast_lt (by simpa using hentry)
  · intro n hn
    rw [← String.length_toList] at hn
    rw [← String.toList_eq_nil_iff, toList_entry_iterate_del]
    exact iterate_deleteLast_eq_nil hn

/-- A calculator in which the name of a function stands alone in the field. -/
def named : Calculator := { initial with entry := "2 sqrt" }

/-- An opening parenthesis put behind the name of a function is taken off without the name. -/
theorem del_undoes_press_parenthesis :
    .symbol .opening "(" ∈ named.buttons ∧
    (∃ t, dropSpaces t = ['2', ' ', 's', 'q', 'r', 't'] ∧
      (named.press (.symbol .opening "(")).press .del =
        { named with entry := String.ofList t, wantsFocus := true }) ∧
    (named.press .del).entry.length < 6 ∧ ((·.press .del)^[6] named).entry = "" := by
  obtain ⟨-, hundo, hshorter, hempty⟩ := del_undoes_press named
  have hbutton : .symbol .opening "(" ∈ named.buttons :=
    List.mem_append_left _ (List.mem_append_left _ (by decide))
  have hspaces : dropSpaces named.entry.toList = ['2', ' ', 's', 'q', 'r', 't'] := by decide
  refine ⟨hbutton, ?_, hshorter (by decide), hempty 6 (by decide)⟩
  rw [← hspaces]
  exact hundo _ hbutton ⟨_, _, rfl⟩ (by decide)

end Calculator

end RadixCalc
