import Mathlib.Algebra.Order.Field.Rat
import Mathlib.Tactic.Linarith
import RadixCalc.Keypad
import RadixCalc.Proofs.FailedLine
import RadixCalc.Proofs.Tolerance

/-!
# The settings of a session

Whatever is done to the calculator, its scope stays one in which lines can be read and results can
be written: an assignment checks what it binds, and nothing else binds.

* `Scope.Sound`: the names and the settings of a session; `Scope.Sound.define`: an assignment keeps
  them.
* `Calculator.Action`, `Calculator.Reachable`: what is done to the calculator.
* `Calculator.leads_act`: an action leaves the scope, or goes back to the first one, or binds.
* `Calculator.Reachable.sound`: the scope of a session.
* `Calculator.settings_of_reachable`: the settings of every session, and what follows for its lines
  and its keypad.
-/

namespace RadixCalc

open Text

/-! ## Scopes -/

namespace Scope

variable {s : Scope} {name : String} {x value : Rat}

/-- **What the scope of a session holds**: names only, the constants and the settings it began with,
a whole precision within its bounds, two radices, and a positive tolerance if one is set. -/
structure Sound (s : Scope) : Prop where
  named : ∀ name value, s.get? name = some value → isName name = true
  euler : ∃ value, s.get? "e" = some value
  archimedes : ∃ value, s.get? "pi" = some value
  fraction : ∃ value, s.get? Setting.fraction.name = some value
  precision : ∃ p : Nat, p ≤ maxPrecision ∧ s.get? Setting.precision.name = some (p : Rat)
  inputRadix : ∃ β : Radix, s.get? Setting.inputRadix.name = some β.value
  outputRadix : ∃ β : Radix, s.get? Setting.outputRadix.name = some β.value
  epsilon : ∀ value, s.get? Setting.epsilon.name = some value → 0 < value

theorem sound_initial : initial.Sound where
  named := by
    intro name value h
    unfold initial at h
    simp only [get?_define, get?_empty] at h
    -- a name that is bound is one of the six
    split_ifs at h <;> subst name <;> decide +kernel
  euler := Option.isSome_iff_exists.1 (by decide +kernel)
  archimedes := Option.isSome_iff_exists.1 (by decide +kernel)
  fraction := Option.isSome_iff_exists.1 (by decide +kernel)
  precision := ⟨30, by decide, by decide +kernel⟩
  inputRadix := ⟨Radix.ten, by decide +kernel⟩
  outputRadix := ⟨Radix.ten, by decide +kernel⟩
  epsilon := by
    intro value h
    have hnone : initial.get? Setting.epsilon.name = none := by decide +kernel
    rw [hnone] at h
    cases h

/-- A name that is bound stays bound when any name is. -/
theorem exists_get?_define {other : String} (h : ∃ x, s.get? other = some x) :
    ∃ x, (s.define name value).get? other = some x := by
  rw [get?_define]
  split
  · exact ⟨value, rfl⟩
  · exact h

/-- A setting has the value bound to it, or keeps the one it had. -/
theorem get?_define_cases {other : String} {y : Rat}
    (h : (s.define name value).get? other = some y) :
    name = other ∧ y = value ∨ s.get? other = some y := by
  rw [get?_define] at h
  split at h
  · rename_i hname
    cases h
    exact .inl ⟨hname, rfl⟩
  · exact .inr h

theorem ofRat_value {β : Radix} (h : Radix.ofRat x = .ok β) : β.value = x := by
  unfold Radix.ofRat at h
  split at h <;> cases h
  rfl

theorem epsilon_of_checked (h : checked Setting.epsilon.name x = .ok value) : 0 < value := by
  have hchecked : checked Setting.epsilon.name x =
      if 0 < x then .ok x else .error (.badSetting Setting.epsilon.name x "doit être > 0") := rfl
  rw [hchecked] at h
  split at h <;> cases h
  assumption

theorem precision_of_checked (h : checked Setting.precision.name x = .ok value) :
    ∃ p : Nat, p ≤ maxPrecision ∧ value = p := by
  have hchecked : checked Setting.precision.name x = .ok (precisionOf x : Rat) := rfl
  rw [hchecked] at h
  cases h
  exact ⟨_, Nat.min_le_right _ _, rfl⟩

/-- The radix of a setting is still one when a checked value is bound to any name. -/
theorem exists_radix_define {setting : Setting}
    (hsetting : setting = .inputRadix ∨ setting = .outputRadix)
    (h : ∃ β : Radix, s.get? setting.name = some β.value) (hchecked : checked name x = .ok value) :
    ∃ β : Radix, (s.define name value).get? setting.name = some β.value := by
  rw [get?_define]
  split
  · rename_i hname
    subst hname
    obtain ⟨β, hβ⟩ := exists_radix_of_checked hsetting hchecked
    exact ⟨β, by rw [ofRat_value hβ]⟩
  · exact h

/-- **An assignment keeps a scope sound**: what it binds to a name has been checked. -/
theorem Sound.define (h : s.Sound) (hname : isName name = true)
    (hchecked : checked name x = .ok value) : (s.define name value).Sound where
  named := by
    intro other y hy
    rcases get?_define_cases hy with ⟨rfl, -⟩ | hy
    · exact hname
    · exact h.named other y hy
  euler := exists_get?_define h.euler
  archimedes := exists_get?_define h.archimedes
  fraction := exists_get?_define h.fraction
  precision := by
    rw [get?_define]
    split
    · rename_i hname
      subst hname
      obtain ⟨p, hp, rfl⟩ := precision_of_checked hchecked
      exact ⟨p, hp, rfl⟩
    · exact h.precision
  inputRadix := exists_radix_define (.inl rfl) h.inputRadix hchecked
  outputRadix := exists_radix_define (.inr rfl) h.outputRadix hchecked
  epsilon := by
    intro y hy
    rcases get?_define_cases hy with ⟨rfl, rfl⟩ | hy
    · exact epsilon_of_checked hchecked
    · exact h.epsilon y hy

theorem radixAt_of_get? {setting : Setting} {β : Radix} (h : s.get? setting.name = some β.value) :
    s.radixAt setting = .ok β := by
  unfold radixAt
  rw [h]
  exact β.ofRat_self

/-- **The settings of a sound scope**: they are what is bound to their names. -/
theorem Sound.exists_settings (h : s.Sound) : ∃ settings, s.settings = .ok settings ∧
    0 < settings.tolerance ∧ s.get? Setting.inputRadix.name = some settings.inputRadix.value ∧
    s.get? Setting.outputRadix.name = some settings.outputRadix.value := by
  obtain ⟨β, hβ⟩ := h.inputRadix
  obtain ⟨γ, hγ⟩ := h.outputRadix
  unfold settings
  rw [radixAt_of_get? hβ, ok_bind, radixAt_of_get? hγ, ok_bind]
  refine ⟨_, rfl, ?_, hβ, hγ⟩
  unfold Settings.tolerance
  dsimp only
  cases hε : (s.get? Setting.epsilon.name).filter (0 < ·) with
  | none =>
    have htwo := γ.two_le
    rw [Option.getD_none]
    exact Rat.inv_pos.2 (Rat.pow_pos (by linarith))
  | some ε =>
    rw [Option.getD_some]
    simpa using (Option.filter_eq_some_iff.1 hε).2

theorem Sound.usable (h : s.Sound) : s.Usable := by
  obtain ⟨settings, hsettings, htolerance, -⟩ := h.exists_settings
  exact ⟨settings, hsettings, htolerance⟩

end Scope

/-! ## Actions -/

namespace Calculator

variable {c : Calculator} {line : String} {s : Scope} {f : Fault}

/-- What is done to the calculator: the field is filled, a line is run, a button is pressed, a
command is carried out, a fault is reported, and the focus is given back to the field. -/
inductive Action where
  | enter (text : String)
  | runLine (line : String)
  | run
  | press (b : Button)
  | clearEntry
  | clearTranscript
  | list
  | reset
  | usage
  | fail (message : String)
  | focus

/-- The calculator after an action. -/
def act (c : Calculator) : Action → Calculator
  | .enter text => { c with entry := text }
  | .runLine line => c.runLine line
  | .run => c.run
  | .press b => c.press b
  | .clearEntry => c.clearEntry
  | .clearTranscript => c.clearTranscript
  | .list => c.list
  | .reset => c.reset
  | .usage => c.usage
  | .fail message => c.fail message
  | .focus => { c with wantsFocus := false }

/-- The states of the calculator in a session. -/
inductive Reachable : Calculator → Prop
  | initial : Reachable initial
  | act {c : Calculator} (h : Reachable c) (a : Action) : Reachable (c.act a)

theorem Reachable.runLine {c : Calculator} (h : c.Reachable) (line : String) :
    (c.runLine line).Reachable :=
  h.act (.runLine line)

/-- `s'` is `s`, or the scope of the start, or `s` with a name bound by a line. -/
def Leads (s s' : Scope) : Prop :=
  s' = s ∨ s' = Scope.initial ∨ ∃ line name value, Binds line s name value ∧ s' = s.define name value

theorem leads_evaluateLine (line : String) (β : Radix) (s : Scope) :
    Leads s (evaluateLine line β s).2 := by
  rcases evaluateLine_cases line β s with ⟨f, h⟩ | ⟨-, ev, h⟩ | ⟨name, value, h⟩
  · exact .inl (by rw [h])
  · exact .inl (by rw [h])
  · obtain ⟨ev, -, heval⟩ := h.evaluateLine_eq β
    exact .inr (.inr ⟨line, name, value, h, by rw [heval]⟩)

theorem leads_result (line : String) (s : Scope) : Leads s (result line s).2 := by
  unfold result
  split
  · exact .inl rfl
  · exact leads_evaluateLine _ _ _

theorem leads_runExpression (c : Calculator) (line : String) :
    Leads c.scope (c.runExpression line).scope := by
  have h := leads_result line c.scope
  unfold runExpression
  dsimp only
  split
  · rw [scope_fail]
    exact h
  · exact h

@[simp] theorem scope_clearTranscript : c.clearTranscript.scope = c.scope := by
  unfold clearTranscript
  rfl

theorem scope_reset : c.reset.scope = Scope.initial := by
  unfold reset
  rw [scope_list, scope_clearTranscript]

theorem leads_runCommand (c : Calculator) (name : String) :
    Leads c.scope (c.runCommand name).scope := by
  unfold runCommand
  split
  · exact .inl scope_clearTranscript
  split
  · exact .inl scope_list
  split
  · exact .inr (.inl scope_reset)
  split
  · exact .inl (scope_displayAll _)
  · exact .inl (scope_fail _)

theorem leads_runLine (c : Calculator) (line : String) : Leads c.scope (c.runLine line).scope := by
  by_cases hvisible : lower (trim line) = ""
  · exact .inl (by rw [runLine_of_blank hvisible])
  have hshown : (c.shown (lower (trim line))).scope = c.scope := scope_shown
  -- a command or an expression, once the line is in the transcript
  by_cases hcommand : (lower (trim line)).toList.head? = some '#'
  · rw [runLine_of_command hcommand, ← hshown]
    exact leads_runCommand _ _
  · rw [runLine_of_expression hvisible hcommand, ← hshown]
    exact leads_runExpression _ _

theorem scope_run (c : Calculator) :
    c.run.scope = (runLine { c with entry := "" } c.entry).scope := by
  unfold run
  dsimp only

theorem leads_run (c : Calculator) : Leads c.scope c.run.scope := by
  rw [scope_run]
  exact leads_runLine { c with entry := "" } c.entry

theorem leads_press (c : Calculator) (b : Button) : Leads c.scope (c.press b).scope := by
  unfold press
  cases b.action with
  | command =>
    dsimp only
    exact leads_runLine c b.label
  | run => exact leads_run c
  | clear | delete | insert | panel => exact .inl rfl

/-- **What an action does to the scope**: it leaves it, or goes back to the scope of the start, or
binds a name by a line. -/
theorem leads_act (c : Calculator) (a : Action) : Leads c.scope (c.act a).scope := by
  cases a with
  | runLine line => exact leads_runLine c line
  | run => exact leads_run c
  | press b => exact leads_press c b
  | list => exact .inl scope_list
  | reset => exact .inr (.inl scope_reset)
  | clearTranscript => exact .inl scope_clearTranscript
  | usage => exact .inl (scope_displayAll _)
  | fail message => exact .inl (scope_fail message)
  | enter | clearEntry | focus => exact .inl rfl

theorem Leads.sound {s' : Scope} (h : Leads s s') (hs : s.Sound) : s'.Sound := by
  rcases h with rfl | rfl | ⟨line, name, value, hbinds, rfl⟩
  · exact hs
  · exact Scope.sound_initial
  · obtain ⟨left, expr, ev, -, -, -, hchecked⟩ := hbinds.stored
    exact hs.define hbinds.named hchecked

/-- **The scope of every session is sound.** -/
theorem Reachable.sound (h : c.Reachable) : c.scope.Sound := by
  induction h with
  | initial => exact Scope.sound_initial
  | act _ a ih => exact (leads_act _ a).sound ih

/-! ## Lines and keypad -/

/-- A line whose result cannot be shown fails itself, or its value is too long. -/
theorem result_error_cases (hs : s.Sound) (h : (result line s).1 = .error f) :
    (∃ β, (evaluateLine line β s).1 = .error f) ∨ ∃ bits radix, f = .numberTooLong bits radix := by
  obtain ⟨settings, hsettings, -⟩ := hs.exists_settings
  unfold result at h
  rw [hsettings] at h
  dsimp only at h
  rcases bind_eq_error_iff.1 h with h | ⟨ev, -, h⟩
  · exact .inl ⟨_, h⟩
  -- the settings are read again, from a scope that is sound as well
  obtain ⟨behind, hbehind, -⟩ :=
    ((leads_evaluateLine line settings.inputRadix s).sound hs).exists_settings
  rw [hbehind, ok_bind] at h
  rcases bind_eq_error_iff.1 h with h | ⟨text, -, h⟩
  · obtain ⟨bits, rfl⟩ := Numeral.write_error_cases h
    exact .inr ⟨bits, _, rfl⟩
  · cases h

/-- **The settings of every session.** The scope is sound, so there are settings, with a positive
tolerance. No line fails for a tolerance, nor for a radix but one that the line itself assigns. The
keypad shows as many digits as the input radix has. -/
theorem settings_of_reachable (h : c.Reachable) :
    c.scope.Sound ∧
    (∃ settings, c.scope.settings = .ok settings ∧ 0 < settings.tolerance) ∧
    (∀ line β f, (evaluateLine line β c.scope).1 = .error f ∨ (result line c.scope).1 = .error f →
      (∀ ε, f ≠ .badTolerance ε) ∧ ∀ q, f = .badRadix q → AssignsBadRadix line c.scope q) ∧
    ∃ β : Radix, c.scope.get? Setting.inputRadix.name = some β.value ∧
      c.inputDigits = Digit.symbols.take β.value.ceil.toNat ∧
      c.inputDigits.length = β.value.ceil.toNat ∧
      c.buttons = Button.fixed ++ c.inputDigits.map (fun d => .symbol .digit d.toString) ++
        [.symbol .digit ".", .panel] := by
  have hs := h.sound
  obtain ⟨settings, hsettings, htolerance, hinput, -⟩ := hs.exists_settings
  refine ⟨hs, ⟨settings, hsettings, htolerance⟩, ?_, settings.inputRadix, hinput, ?_⟩
  · intro line β f hf
    have hblamed (hf' : f.isOfSettings = true) :
        ∃ q, f = .badRadix q ∧ AssignsBadRadix line c.scope q := by
      rcases hf with hf | hf
      · exact hs.usable.fault_of_evaluateLine hf hf'
      rcases result_error_cases hs hf with ⟨γ, hf⟩ | ⟨bits, radix, rfl⟩
      · exact hs.usable.fault_of_evaluateLine hf hf'
      · cases hf'
    constructor
    · rintro ε rfl
      obtain ⟨q, hq, -⟩ := hblamed rfl
      cases hq
    · rintro q rfl
      obtain ⟨q', hq, hassigns⟩ := hblamed rfl
      cases hq
      exact hassigns
  · -- the symbols do not run out: no radix has more digits
    have hdigits : c.inputDigits = Digit.symbols.take settings.inputRadix.value.ceil.toNat := by
      unfold inputDigits
      rw [hsettings]
      rfl
    refine ⟨hdigits, ?_, rfl⟩
    have hcount := settings.inputRadix.ceil_le
    rw [hdigits, List.length_take, Digit.length_symbols]
    omega

/-- A radix of sixteen and a half has seventeen digits, and stays the input radix when a radix of
one is refused. -/
theorem settings_of_refused_radix :
    Reachable ((initial.runLine "$input_base := 33/2").runLine "$input_base := 1") ∧
    ((initial.runLine "$input_base := 33/2").runLine "$input_base := 1").error =
      "base invalide : 1 (attendu 2 ≤ base ≤ 42)" ∧
    ((initial.runLine "$input_base := 33/2").runLine "$input_base := 1").scope.Sound ∧
    ((initial.runLine "$input_base := 33/2").runLine "$input_base := 1").inputDigits.length = 17 := by
  have hreachable :
      Reachable ((initial.runLine "$input_base := 33/2").runLine "$input_base := 1") :=
    (Reachable.initial.runLine _).runLine _
  have hradix : ((initial.runLine "$input_base := 33/2").runLine "$input_base := 1").scope.get?
      Setting.inputRadix.name = some (33 / 2) := by decide +kernel
  obtain ⟨hsound, -, -, β, hβ, -, hlength, -⟩ := settings_of_reachable hreachable
  rw [hradix] at hβ
  refine ⟨hreachable, by decide +kernel, hsound, hlength.trans ?_⟩
  rw [← Option.some.inj hβ]
  decide +kernel

end Calculator

end RadixCalc
