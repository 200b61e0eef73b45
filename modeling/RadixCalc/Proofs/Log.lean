import Mathlib.Data.String.Basic
import RadixCalc.Proofs.Session

/-!
# The log behind the transcript

The transcript is the end of a log that forgets nothing. The log begins with the welcome line, and
an action either empties it or adds to it what the action has to say.

* `Transcript.push_ofList`, `Transcript.pushAll_ofList`: only the last lines count for the next
  ones.
* `lower_eq_empty_iff`: no text but the empty one is empty in lower case.
* `Lists`: one line for each binding, in the order of the names.
* `Deed`, `Calculator.request`: what an action shows first, and what it then does.
* `Grows`: the log behind a deed.
* `Calculator.Tells`: the transcript is the end of the log, and a fault leaves nothing of the line
  before.
* `Calculator.Tells.act`: every action keeps this and adds to the log what it should.
* `Calculator.transcript_after`: the log of a session.
-/

namespace RadixCalc

open Text

variable {c : Calculator} {log ls : List Line} {line : String} {s : Scope}
  {α β : Type} {xs : List α} {ys : List β}

/-! ## The end of a list of lines -/

/-- Only the last `k` elements count for the last `k` of a longer list. -/
theorem drop_append_drop (xs : List α) (x : α) (k : ℕ) :
    (xs.drop (xs.length - k) ++ [x]).drop ((xs.drop (xs.length - k) ++ [x]).length - k) =
      (xs ++ [x]).drop ((xs ++ [x]).length - k) := by
  have hle : xs.length - k ≤ xs.length := Nat.sub_le _ _
  rw [← List.drop_append_of_le_length hle, List.drop_drop, List.length_drop, List.length_append,
    List.length_singleton]
  congr 1
  omega

namespace Transcript

theorem lines_ofList (log : List Line) : (ofList log).lines = log.drop (log.length - capacity) := by
  simp only [ofList]

theorem push_ofList (log : List Line) (l : Line) : (ofList log).push l = ofList (log ++ [l]) := by
  unfold push ofList
  simp only [drop_append_drop]

/-- **Lines pushed behind the end of a log** stand at the end of the longer log. -/
theorem pushAll_ofList (log ls : List Line) : (ofList log).pushAll ls = ofList (log ++ ls) := by
  unfold pushAll
  induction ls generalizing log with
  | nil => rw [List.append_nil, List.foldl_nil]
  | cons l ls ih => rw [List.foldl_cons, push_ofList, ih, List.append_assoc, List.singleton_append]

end Transcript

/-! ## Texts -/

theorem smallForms_ne_nil (c : Char) : smallForms c ≠ [] := by
  unfold smallForms
  split
  · nofun
  split
  · nofun
  split <;> nofun

theorem lowerOnto_ne_nil {done : List Char} (h : done ≠ []) (inWord : Bool) (cs : List Char) :
    lowerOnto done inWord cs ≠ [] := by
  induction cs generalizing done inWord with
  | nil => simpa [lowerOnto] using h
  | cons c cs ih => exact ih (by simp [h]) _

/-- Nothing but the empty text is empty in lower case. -/
theorem lower_eq_empty_iff {t : String} : lower t = "" ↔ t = "" := by
  constructor
  · intro h
    cases ht : t.toList with
    | nil => exact String.toList_eq_nil_iff.1 ht
    | cons c cs =>
      unfold lower at h
      rw [ht, ← String.toList_eq_nil_iff, String.toList_ofList, lowerOnto] at h
      refine absurd h (lowerOnto_ne_nil ?_ _ cs)
      split
      · simp
      · simpa using smallForms_ne_nil c
  · rintro rfl
    rfl

/-! ## The lines of the bindings -/

/-- A pass that succeeds has gone from each element to its result. -/
theorem forall₂_of_mapM {g : α → Except Fault β} (h : xs.mapM g = .ok ys) :
    List.Forall₂ (fun x y => g x = .ok y) xs ys := by
  induction xs generalizing ys with
  | nil => cases h; exact .nil
  | cons x xs ih =>
    rw [List.mapM_cons] at h
    obtain ⟨y, hy, h⟩ := bind_eq_ok_iff.1 h
    obtain ⟨ys', hys, h⟩ := bind_eq_ok_iff.1 h
    cases h
    exact .cons hy (ih hys)

/-- **The lines of all bindings**: one for each, with its name and its value as the settings say, in
the order of the names. -/
def Lists (s : Scope) (ls : List Line) : Prop :=
  ∃ settings, s.settings = .ok settings ∧ ∃ bindings : List (String × Rat),
    (∀ name value, (name, value) ∈ bindings ↔ s.get? name = some value) ∧
    bindings.Pairwise (fun b b' => b.1 < b'.1) ∧
    List.Forall₂ (fun b l => ∃ text, Numeral.write b.2 settings.outputRadix settings.precision
      settings.asFraction = .ok text ∧ l = .output (b.1 ++ ": " ++ text)) bindings ls

theorem lists_of_listing (h : Calculator.listing s = .ok ls) : Lists s ls := by
  unfold Calculator.listing at h
  obtain ⟨settings, hsettings, h⟩ := bind_eq_ok_iff.1 h
  refine ⟨settings, hsettings, s.toList, fun name value => ?_, ?_, ?_⟩
  · exact Std.TreeMap.mem_toList_iff_getElem?_eq_some
  · exact (Std.TreeMap.ordered_keys_toList (t := s.bindings)).imp compare_lt_iff_lt.1
  · refine (forall₂_of_mapM h).imp fun b l hl => ?_
    obtain ⟨text, htext, hl⟩ := bind_eq_ok_iff.1 hl
    cases hl
    exact ⟨text, htext, rfl⟩

/-! ## What is asked for -/

/-- What is done, once the line that asks for it is shown. -/
inductive Deed where
  | nothing
  | clear
  | list
  | reset
  | usage
  | fail (message : String)
  | evaluate (line : String)

/-- What a line asks for: a command if it begins with `#`, and its value otherwise. -/
def Deed.ofLine (line : String) : Deed :=
  if line.toList.head? = some '#' then
    if line = "#clear" then .clear
    else if line = "#list" then .list
    else if line = "#reset" then .reset
    else if line = "#usage" then .usage
    else .fail ("commande inconnue : " ++ line)
  else .evaluate line

/-- What a line shows and asks for. A line that is not blank is shown in lower case, without the
blanks around it. -/
def lineRequest (line : String) : List Line × Deed :=
  if trim line = "" then ([], .nothing)
  else ([.input (lower (trim line))], .ofLine (lower (trim line)))

/-- What a button shows and asks for. -/
def Calculator.buttonRequest (c : Calculator) (b : Button) : List Line × Deed :=
  match b.action with
  | .command => lineRequest b.label
  | .run => lineRequest c.entry
  | .clear | .delete | .insert _ _ | .panel => ([], .nothing)

/-- What an action shows and asks for. -/
def Calculator.request (c : Calculator) : Action → List Line × Deed
  | .runLine line => lineRequest line
  | .run => lineRequest c.entry
  | .press b => c.buttonRequest b
  | .clearTranscript => ([], .clear)
  | .list => ([], .list)
  | .reset => ([], .reset)
  | .usage => ([], .usage)
  | .fail message => ([], .fail message)
  | .enter _ | .clearEntry | .focus => ([], .nothing)

/-- **The log behind a deed**, from the scope before it and the fault and the incidents behind it.
The log is emptied, or grows by the lines of a command, by a result with a warning for each
incident, or by the wording of a fault. -/
inductive Grows (s : Scope) (error : String) (incidents : List String) (log : List Line) :
    Deed → List Line → Prop
  | nothing : Grows s error incidents log .nothing log
  | clear : Grows s error incidents log .clear []
  | reset {ls : List Line} (h : Lists Scope.initial ls) : Grows s error incidents log .reset ls
  | list {ls : List Line} (h : Lists s ls) : Grows s error incidents log .list (log ++ ls)
  | listFault {f : Fault} (h : Calculator.listing s = .error f) (herror : error = f.message) :
      Grows s error incidents log .list (log ++ [.error error])
  | usage : Grows s error incidents log .usage (log ++ Calculator.usageLines.map .output)
  | fail : Grows s error incidents log (.fail error) (log ++ [.error error])
  | value {line text : String} {ev : Evaluation}
      (h : (Calculator.result line s).1 = .ok (text, ev)) (herror : error = "")
      (hincidents : incidents = ev.incidents.map Fault.message) :
      Grows s error incidents log (.evaluate line)
        (log ++ .output text :: incidents.map .warning)
  | fault {line : String} {f : Fault} (h : (Calculator.result line s).1 = .error f)
      (herror : error = f.message) (hfailed : error ≠ "") :
      Grows s error incidents log (.evaluate line) (log ++ [.error error])

namespace Calculator

/-! ## What an action keeps -/

/-- **The transcript is the end of the log**, and a fault leaves nothing of the line before. -/
structure Tells (c : Calculator) (log : List Line) : Prop where
  ends : c.transcript = .ofList log
  forgets : c.error ≠ "" → c.workings = {} ∧ c.incidents = []

/-- The log has grown by a deed, and the calculator tells it. -/
def Answers (c : Calculator) (s : Scope) (log : List Line) (d : Deed) : Prop :=
  ∃ log', Grows s c.error c.incidents log d log' ∧ c.Tells log'

theorem tells_initial : initial.Tells [.output welcome] :=
  ⟨rfl, fun h => absurd rfl h⟩

theorem tells_clearTranscript : c.clearTranscript.Tells [] :=
  ⟨rfl, fun h => absurd rfl h⟩

theorem Tells.displayAll (h : c.Tells log) (ls : List Line) :
    (c.displayAll ls).Tells (log ++ ls) := by
  refine ⟨?_, h.forgets⟩
  show c.transcript.pushAll ls = _
  rw [h.ends, Transcript.pushAll_ofList]

/-- Behind a line that has not failed, the workings and the incidents may be any. -/
theorem Tells.telling (h : c.Tells log) (herror : c.error = "") (workings : Workings)
    (incidents : List String) : Tells { c with workings, incidents } log :=
  ⟨h.ends, fun hfailed => absurd herror hfailed⟩

theorem Tells.fail (h : c.Tells log) (message : String) :
    (c.fail message).Tells (log ++ [.error message]) := by
  refine ⟨?_, fun _ => ⟨rfl, rfl⟩⟩
  show c.transcript.push (.error message) = _
  rw [h.ends, Transcript.push_ofList]

theorem Tells.shown (h : c.Tells log) (line : String) :
    (c.shown line).Tells (log ++ [.input line]) := by
  refine ⟨?_, fun herror => absurd rfl herror⟩
  show c.transcript.push (.input line) = _
  rw [h.ends, Transcript.push_ofList]

/-- The field and the focus are not told. -/
theorem Answers.enter {d : Deed} (h : c.Answers s log d) (entry : String) (wantsFocus : Bool) :
    Answers { c with entry, wantsFocus } s log d := by
  obtain ⟨log', hgrows, htells⟩ := h
  exact ⟨log', hgrows, htells.ends, htells.forgets⟩

theorem Tells.nothing (h : c.Tells log) : c.Answers s log .nothing :=
  ⟨log, .nothing, h⟩

theorem Tells.list (h : c.Tells log) : c.list.Answers c.scope log .list := by
  unfold Calculator.list
  -- all lines are written before the first is shown, so that a fault shows none of them
  cases hlisting : listing c.scope with
  | ok ls => exact ⟨_, .list (lists_of_listing hlisting), h.displayAll ls⟩
  | error f => exact ⟨_, .listFault hlisting rfl, h.fail f.message⟩

/-- The bindings of the start are all listed. -/
theorem answers_reset : c.reset.Answers s log .reset := by
  obtain ⟨ls, hls⟩ := listing_initial
  have hreset : c.reset = { c with scope := .initial }.clearTranscript.displayAll ls := by
    unfold reset Calculator.list clearTranscript
    dsimp only
    rw [hls]
  refine ⟨ls, .reset (lists_of_listing hls), ?_⟩
  rw [hreset, ← List.nil_append ls]
  exact tells_clearTranscript.displayAll _

theorem Tells.usage (h : c.Tells log) : c.usage.Answers s log .usage :=
  ⟨_, .usage, h.displayAll _⟩

theorem Tells.answers_fail (h : c.Tells log) (message : String) :
    (c.fail message).Answers s log (.fail message) :=
  ⟨_, .fail, h.fail message⟩

theorem Tells.runCommand (h : c.Tells log) (hcommand : line.toList.head? = some '#') :
    (c.runCommand line).Answers c.scope log (.ofLine line) := by
  unfold Calculator.runCommand Deed.ofLine
  rw [if_pos hcommand]
  split_ifs
  · exact ⟨[], .clear, tells_clearTranscript⟩
  · exact h.list
  · exact answers_reset
  · exact h.usage
  · exact h.answers_fail _

/-- A result and its warnings, or a fault. -/
theorem Tells.runExpression (h : c.Tells log) (hexpression : line.toList.head? ≠ some '#')
    (herror : c.error = "") : (c.runExpression line).Answers c.scope log (.ofLine line) := by
  unfold Deed.ofLine
  rw [if_neg hexpression]
  rcases hresult : result line c.scope with ⟨outcome, s⟩
  have houtcome : (result line c.scope).1 = outcome := by rw [hresult]
  -- the line may bind a name, also when its value cannot be written
  have hbehind : Tells { c with scope := s } log := ⟨h.ends, h.forgets⟩
  unfold Calculator.runExpression
  rw [hresult]
  dsimp only
  cases outcome with
  | error f => exact ⟨_, .fault houtcome rfl f.message_ne_empty, hbehind.fail f.message⟩
  | ok shown =>
    obtain ⟨text, ev⟩ := shown
    have hshown := hbehind.displayAll
      (.output text :: (ev.incidents.map Fault.message).map .warning)
    exact ⟨_, .value houtcome herror rfl, hshown.telling herror _ _⟩

/-- **What a line adds to the log.** -/
theorem Tells.runLine (h : c.Tells log) (line : String) :
    (c.runLine line).Answers c.scope (log ++ (lineRequest line).1) (lineRequest line).2 := by
  unfold lineRequest
  by_cases hblank : trim line = ""
  · rw [if_pos hblank, runLine_of_blank (lower_eq_empty_iff.2 hblank), List.append_nil]
    exact h.nothing
  rw [if_neg hblank]
  have hvisible : lower (trim line) ≠ "" := mt lower_eq_empty_iff.1 hblank
  have hshown := h.shown (lower (trim line))
  have hscope : (c.shown (lower (trim line))).scope = c.scope := scope_shown
  by_cases hcommand : (lower (trim line)).toList.head? = some '#'
  · rw [runLine_of_command hcommand, ← hscope]
    dsimp only
    exact hshown.runCommand hcommand
  · rw [runLine_of_expression hvisible hcommand, ← hscope]
    dsimp only
    exact hshown.runExpression hcommand error_shown

theorem Tells.run (h : c.Tells log) :
    c.run.Answers c.scope (log ++ (lineRequest c.entry).1) (lineRequest c.entry).2 := by
  have hemptied : Tells { c with entry := "" } log := ⟨h.ends, h.forgets⟩
  exact (hemptied.runLine c.entry).enter _ true

theorem Tells.press (h : c.Tells log) (b : Button) :
    (c.press b).Answers c.scope (log ++ (c.buttonRequest b).1) (c.buttonRequest b).2 := by
  unfold Calculator.press buttonRequest
  cases b.action with
  | command => exact (h.runLine b.label).enter _ true
  | run => exact h.run
  | clear | delete | insert =>
    dsimp only
    rw [List.append_nil]
    exact h.nothing.enter _ true
  | panel =>
    dsimp only
    rw [List.append_nil]
    exact h.nothing

/-- **What an action adds to the log**, and that the transcript is still the end of it. -/
theorem Tells.act (h : c.Tells log) (a : Action) :
    (c.act a).Answers c.scope (log ++ (c.request a).1) (c.request a).2 := by
  cases a with
  | runLine line => exact h.runLine line
  | run => exact h.run
  | press b => exact h.press b
  | clearTranscript => exact ⟨[], .clear, tells_clearTranscript⟩
  | list => rw [request, List.append_nil]; exact h.list
  | reset => exact answers_reset
  | usage => rw [request, List.append_nil]; exact h.usage
  | fail message => rw [request, List.append_nil]; exact h.answers_fail message
  | enter | clearEntry | focus =>
    rw [request, List.append_nil]
    exact h.nothing.enter _ _

/-! ## Sessions -/

/-- The calculator after a number of actions. -/
def after (as : List Action) : Calculator :=
  as.foldl act initial

theorem after_concat (as : List Action) (a : Action) : after (as ++ [a]) = (after as).act a := by
  unfold after
  rw [List.foldl_append, List.foldl_cons, List.foldl_nil]

/-- **The log of a session**, which begins with the welcome line and grows with every action. -/
inductive Logged : List Action → List Line → Prop
  | initial : Logged [] [.output welcome]
  | act {as : List Action} {log log' : List Line} (h : Logged as log) (a : Action)
      (hgrows : Grows (after as).scope (after (as ++ [a])).error (after (as ++ [a])).incidents
        (log ++ ((after as).request a).1) ((after as).request a).2 log') :
      Logged (as ++ [a]) log'

theorem exists_logged (as : List Action) : ∃ log, Logged as log ∧ (after as).Tells log := by
  -- on the actions from the last one backwards; the invariant is that the transcript ends the log
  induction as using List.reverseRecOn with
  | nil => exact ⟨_, .initial, tells_initial⟩
  | append_singleton as a ih =>
    obtain ⟨log, hlogged, htells⟩ := ih
    obtain ⟨log', hgrows, htells'⟩ := htells.act a
    rw [← after_concat] at hgrows htells'
    exact ⟨log', hlogged.act a hgrows, htells'⟩

/-- **The transcript is the end of a log that forgets nothing.** After any actions it shows the last
lines of the log of the session, as many as are kept, and if there is a fault, there are no workings
and no incidents. -/
theorem transcript_after (as : List Action) :
    ∃ log, Logged as log ∧
      (after as).transcript.lines = log.drop (log.length - Transcript.capacity) ∧
      ((after as).error ≠ "" → (after as).workings = {} ∧ (after as).incidents = []) := by
  obtain ⟨log, hlogged, htells⟩ := exists_logged as
  exact ⟨log, hlogged, by rw [htells.ends, Transcript.lines_ofList], htells.forgets⟩

end Calculator

end RadixCalc
