import RadixCalc.Calculator
import RadixCalc.Proofs.Assignment
import RadixCalc.Proofs.Size

/-!
# Lines that fail

A line that fails leaves the scope as it was, but for one kind: an assignment that binds a number
too long to be written in the output radix.

* `BindsTooLong`: the lines of that kind.
* `Calculator.result_cases`: what becomes of a line that is no command.
* `Calculator.scope_runCommand`: commands that fail leave the scope as it was.
* `Calculator.scope_of_failed_line`: the same for all lines.
-/

namespace RadixCalc

open Text

variable {c : Calculator} {line name : String} {s : Scope} {value : Rat}

/-- The line is no command, and binds `name` to a value of more bits than are written in the output
radix, as it is set behind the line. -/
structure BindsTooLong (line : String) (s : Scope) (name : String) (value : Rat) : Prop where
  expression : line.toList.head? ≠ some '#'
  readable : ∃ settings, s.settings = .ok settings
  binds : Binds line s name value
  tooLong : ∃ settings, (s.define name value).settings = .ok settings ∧
    Numeral.bitLimit settings.outputRadix < ratBits value

/-- Every fault has a wording. -/
theorem Fault.message_ne_empty (f : Fault) : f.message ≠ "" := by
  cases f with
  | divisionByZero | missingClose => decide
  | _ =>
    unfold Fault.message
    simp only [ne_eq, String.append_eq_empty_iff, String.reduceEq, false_and, and_false,
      not_false_eq_true]

namespace Calculator

/-! ## Evaluated lines -/

/-- A line that binds what is too long has its value bound, but fails. -/
theorem result_of_bindsTooLong (h : BindsTooLong line s name value) :
    ∃ bits radix, result line s = (.error (.numberTooLong bits radix), s.define name value) := by
  obtain ⟨settings, hs⟩ := h.readable
  obtain ⟨ev, rfl, hline⟩ := h.binds.evaluateLine_eq settings.inputRadix
  obtain ⟨behind, hbehind, hlong⟩ := h.tooLong
  obtain ⟨bits, hwrite⟩ := Numeral.exists_write_error (p := behind.precision) hlong behind.asFraction
  refine ⟨bits, behind.outputRadix.text, ?_⟩
  unfold result
  rw [hs]
  dsimp only
  rw [hline]
  dsimp only
  rw [ok_bind, hbehind, ok_bind, hwrite, error_bind]

/-- **What becomes of a line that is no command.** It fails and leaves the scope as it was, or it
succeeds, or it binds what is too long. -/
theorem result_cases (hline : line.toList.head? ≠ some '#') (s : Scope) :
    (∃ f, result line s = (.error f, s)) ∨ (∃ shown, (result line s).1 = .ok shown) ∨
    ∃ name value, BindsTooLong line s name value := by
  cases hs : s.settings with
  | error f =>
    refine .inl ⟨f, ?_⟩
    unfold result
    rw [hs]
  | ok settings =>
    have hresult : result line s =
        ((evaluateLine line settings.inputRadix s).1 >>= fun ev =>
          (evaluateLine line settings.inputRadix s).2.settings >>= fun settings =>
            Numeral.write ev.value settings.outputRadix settings.precision settings.asFraction
              >>= fun text => .ok (text, ev),
          (evaluateLine line settings.inputRadix s).2) := by
      unfold result
      rw [hs]
      rfl
    rcases evaluateLine_cases line settings.inputRadix s with
      ⟨f, h⟩ | ⟨-, ev, h⟩ | ⟨name, value, h⟩
    · exact .inl ⟨f, by rw [hresult, h]; rfl⟩
    · -- an expression leaves the scope, so the settings behind it are those before
      rw [h, ok_bind, hs, ok_bind] at hresult
      cases hwrite : Numeral.write ev.value settings.outputRadix settings.precision
          settings.asFraction with
      | error f => exact .inl ⟨f, by rw [hresult, hwrite]; rfl⟩
      | ok text => exact .inr (.inl ⟨(text, ev), by rw [hresult, hwrite]; rfl⟩)
    · obtain ⟨ev, rfl, heval⟩ := h.evaluateLine_eq settings.inputRadix
      obtain ⟨left, expr, ev', -, -, -, hchecked⟩ := h.stored
      obtain ⟨behind, hbehind⟩ := Scope.exists_settings_define ⟨settings, hs⟩ hchecked
      by_cases hlong : Numeral.bitLimit behind.outputRadix < ratBits ev.value
      · exact .inr (.inr ⟨name, ev.value, hline, ⟨settings, hs⟩, h, behind, hbehind, hlong⟩)
      · obtain ⟨text, hwrite⟩ := Numeral.exists_write (p := behind.precision)
          (Nat.not_lt.1 hlong) behind.asFraction
        rw [heval, ok_bind, hbehind, ok_bind, hwrite] at hresult
        exact .inr (.inl ⟨(text, ev), by rw [hresult]; rfl⟩)

@[simp] theorem scope_fail (message : String) : (c.fail message).scope = c.scope := by
  unfold fail
  rfl

@[simp] theorem error_fail (message : String) : (c.fail message).error = message := by
  unfold fail
  rfl

@[simp] theorem scope_displayAll (ls : List Line) : (c.displayAll ls).scope = c.scope := by
  unfold displayAll
  rfl

@[simp] theorem error_displayAll (ls : List Line) : (c.displayAll ls).error = c.error := by
  unfold displayAll
  rfl

theorem runExpression_of_error {f : Fault} (h : result line c.scope = (.error f, s)) :
    (c.runExpression line).scope = s ∧ (c.runExpression line).error = f.message := by
  unfold runExpression
  rw [h]
  simp only [scope_fail, error_fail, and_self]

theorem error_runExpression_of_ok {shown : String × Evaluation}
    (h : (result line c.scope).1 = .ok shown) : (c.runExpression line).error = c.error := by
  unfold runExpression
  rcases hresult : result line c.scope with ⟨outcome, s⟩
  rw [hresult] at h
  cases h
  simp only [error_displayAll]

/-! ## Commands -/

theorem scope_list : c.list.scope = c.scope := by
  unfold list
  split <;> simp

/-- The bindings of the start are short enough to be written. -/
theorem listing_initial : ∃ ls, listing Scope.initial = .ok ls := by
  have h : (listing Scope.initial).isOk = true := by decide +kernel
  cases hlisting : listing Scope.initial with
  | error f => rw [hlisting] at h; cases h
  | ok ls => exact ⟨ls, rfl⟩

theorem error_reset : c.reset.error = "" := by
  obtain ⟨ls, hls⟩ := listing_initial
  unfold reset list clearTranscript
  dsimp only
  rw [hls]
  simp only [error_displayAll]

/-- **A command that fails leaves the scope as it was.** -/
theorem scope_runCommand (h : (c.runCommand name).error ≠ "") :
    (c.runCommand name).scope = c.scope := by
  unfold runCommand at h ⊢
  split
  · unfold clearTranscript
    rfl
  split
  · exact scope_list
  split
  · rename_i hclear hlist hreset
    rw [if_neg hclear, if_neg hlist, if_pos hreset] at h
    exact absurd error_reset h
  split
  · simp only [usage, scope_displayAll]
  · simp only [scope_fail]

/-! ## All lines -/

/-- The state in which a line is run, with the line shown and no fault yet. -/
def shown (c : Calculator) (line : String) : Calculator :=
  { c.display (.input line) with error := "" }

@[simp] theorem scope_shown : (c.shown line).scope = c.scope := by
  unfold shown display
  rfl

@[simp] theorem error_shown : (c.shown line).error = "" := by
  unfold shown
  rfl

theorem runLine_of_blank (h : lower (trim line) = "") : c.runLine line = c := by
  unfold runLine
  dsimp only
  rw [if_pos (String.isEmpty_iff.2 h)]

theorem runLine_of_command (h : (lower (trim line)).toList.head? = some '#') :
    c.runLine line = (c.shown (lower (trim line))).runCommand (lower (trim line)) := by
  have hvisible : ¬ (lower (trim line)).isEmpty = true := by
    intro hempty
    rw [String.isEmpty_iff.1 hempty] at h
    cases h
  unfold runLine
  dsimp only
  rw [if_neg hvisible, if_pos h, shown]

theorem runLine_of_expression (hvisible : lower (trim line) ≠ "")
    (h : (lower (trim line)).toList.head? ≠ some '#') :
    c.runLine line = (c.shown (lower (trim line))).runExpression (lower (trim line)) := by
  unfold runLine
  dsimp only
  rw [if_neg (mt String.isEmpty_iff.1 hvisible), if_neg h, shown]

/-- A line that binds what is too long fails, and leaves its value bound. -/
theorem runLine_of_bindsTooLong (h : BindsTooLong (lower (trim line)) c.scope name value) :
    (c.runLine line).error ≠ "" ∧ (c.runLine line).scope = c.scope.define name value := by
  have hvisible : lower (trim line) ≠ "" := by
    intro hempty
    obtain ⟨left, expr, ev, hsplit, -⟩ := h.binds.stored
    rw [hempty] at hsplit
    cases hsplit
  have hshown : (c.shown (lower (trim line))).scope = c.scope := scope_shown
  rw [← hshown] at h ⊢
  obtain ⟨bits, radix, hresult⟩ := result_of_bindsTooLong h
  rw [runLine_of_expression hvisible h.expression]
  obtain ⟨hscope, herror⟩ := runExpression_of_error hresult
  exact ⟨by rw [herror]; exact Fault.message_ne_empty _, hscope⟩

/-- **A line that fails leaves the scope as it was**, unless it binds a number too long to be
written; such a line always fails, and leaves the number bound. -/
theorem scope_of_failed_line (c : Calculator) (line : String) :
    ((c.runLine line).error ≠ "" →
      (¬ ∃ name value, BindsTooLong (lower (trim line)) c.scope name value) →
      (c.runLine line).scope = c.scope) ∧
    ∀ name value, BindsTooLong (lower (trim line)) c.scope name value →
      (c.runLine line).error ≠ "" ∧ (c.runLine line).scope = c.scope.define name value := by
  refine ⟨fun hfailed hshort => ?_, fun name value h => runLine_of_bindsTooLong h⟩
  by_cases hvisible : lower (trim line) = ""
  · rw [runLine_of_blank hvisible]
  by_cases hcommand : (lower (trim line)).toList.head? = some '#'
  · rw [runLine_of_command hcommand] at hfailed ⊢
    rw [scope_runCommand hfailed, scope_shown]
  rw [runLine_of_expression hvisible hcommand] at hfailed ⊢
  have hscope : (c.shown (lower (trim line))).scope = c.scope := scope_shown
  rw [← hscope] at hshort ⊢
  rcases result_cases hcommand (c.shown (lower (trim line))).scope with ⟨f, h⟩ | ⟨text, h⟩ | h
  · exact (runExpression_of_error h).1
  · rw [error_runExpression_of_ok h] at hfailed
    exact absurd error_shown hfailed
  · exact absurd h hshort

/-- The product of three powers of two has 1200001 bits, and each of them few enough. -/
theorem bindsTooLong_product :
    BindsTooLong "x := 2^400000*2^400000*2^400000" Scope.initial "x" (2 ^ 1200000) := by
  have hvalue : (evaluate " 2^400000*2^400000*2^400000" Radix.ten Scope.initial).map
      Evaluation.value = .ok (2 ^ 1200000) := by decide +kernel
  have hsettings : Scope.initial.settings = .ok ⟨30, Radix.ten, Radix.ten, false, none⟩ := by
    decide +kernel
  have hbehind : (Scope.initial.define "x" (2 ^ 1200000)).settings = Scope.initial.settings :=
    Scope.settings_define fun setting => by cases setting <;> decide
  have hlong : Numeral.bitLimit Radix.ten < ratBits (2 ^ 1200000) := by
    rw [ratBits_two_pow]
    decide
  refine ⟨by decide, ⟨_, hsettings⟩, ⟨by decide, ?_⟩, ⟨_, hbehind.trans hsettings, hlong⟩⟩
  cases hev : evaluate " 2^400000*2^400000*2^400000" Radix.ten Scope.initial with
  | error f =>
    rw [hev] at hvalue
    cases hvalue
  | ok ev =>
    rw [hev] at hvalue
    have hchecked (x : Rat) : Scope.checked "x" x = .ok x := rfl
    refine ⟨"x ", _, ev, by decide +kernel, by decide +kernel, hev, ?_⟩
    rw [hchecked, Except.ok.inj hvalue]

/-- A radix of one is refused, and a number of 1200001 bits is bound by a line that fails. -/
theorem scope_of_bad_radix_and_long_value :
    ((initial.runLine "$output_base := 1").error ≠ "" ∧
      (initial.runLine "$output_base := 1").scope = initial.scope) ∧
    BindsTooLong "x := 2^400000*2^400000*2^400000" Scope.initial "x" (2 ^ 1200000) ∧
    (initial.runLine "x := 2^400000*2^400000*2^400000").error ≠ "" ∧
    (initial.runLine "x := 2^400000*2^400000*2^400000").scope =
      initial.scope.define "x" (2 ^ 1200000) := by
  have hfailed : (initial.runLine "$output_base := 1").error ≠ "" := by decide +kernel
  refine ⟨⟨hfailed, (scope_of_failed_line _ _).1 hfailed ?_⟩, bindsTooLong_product, ?_⟩
  · rintro ⟨name, value, h⟩
    obtain ⟨ev, -, heval⟩ := h.binds.evaluateLine_eq Radix.ten
    have hrefused : (evaluateLine (lower (trim "$output_base := 1")) Radix.ten
        Scope.initial).1.isOk = false := by decide +kernel
    rw [show initial.scope = Scope.initial from rfl] at heval
    rw [heval] at hrefused
    cases hrefused
  · have hline : lower (trim "x := 2^400000*2^400000*2^400000") =
        "x := 2^400000*2^400000*2^400000" := by decide +kernel
    refine (scope_of_failed_line _ _).2 "x" (2 ^ 1200000) ?_
    rw [hline]
    exact bindsTooLong_product

/-- The line that binds a number of 1200001 bits fails, and the number is bound. -/
theorem scope_of_long_assignment :
    (initial.runLine "x := 2^400000*2^400000*2^400000").error ≠ "" ∧
    initial.scope.get? "x" = none ∧
    (initial.runLine "x := 2^400000*2^400000*2^400000").scope.get? "x" =
      some ((2 : Rat) ^ 1200000) := by
  have hline : lower (trim "x := 2^400000*2^400000*2^400000") =
      "x := 2^400000*2^400000*2^400000" := by decide +kernel
  have hlong : BindsTooLong (lower (trim "x := 2^400000*2^400000*2^400000")) initial.scope "x"
      (2 ^ 1200000) := by
    rw [hline]
    exact bindsTooLong_product
  obtain ⟨hfailed, hscope⟩ := runLine_of_bindsTooLong hlong
  refine ⟨hfailed, by decide +kernel, ?_⟩
  rw [hscope, Scope.get?_define, if_pos rfl]

end Calculator

end RadixCalc
