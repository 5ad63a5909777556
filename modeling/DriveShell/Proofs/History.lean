import Mathlib.Data.List.Destutter
import DriveShell.Proofs.Transcript

/-!
# The history

A session remembers every input that is not blank, whatever comes of it.  An input is compared
with the last one remembered only, so what is kept is the inputs with each run of equal ones made
one (`history_of_inputs`).  That is what the library calls destuttering.

Remembering one input after another is a fold, and the fold goes on from the last input that is
kept, wherever the history before it comes from (`foldl_remember`).  The induction is on the
inputs to come.

An input is remembered before its command line runs.  So a list of the history ends with the input
that asks for it.  Such a list is shown exactly if the command line of the input runs a verb
listed under `history` and is not redirected.
-/

namespace DriveShell

namespace Session

variable {s : Session}

/-! ## What is remembered -/

/-- What some inputs say: their texts without the blanks around them, and without blank ones. -/
def texts (inputs : List Text) : List Text := (inputs.map Text.trim).filter (· ≠ [])

theorem texts_cons_blank {input : Text} (h : Text.trim input = []) (inputs : List Text) :
    texts (input :: inputs) = texts inputs := by
  rw [texts, List.map_cons, List.filter_cons_of_neg (by simp [h])]
  rfl

theorem texts_cons {input : Text} (h : Text.trim input ≠ []) (inputs : List Text) :
    texts (input :: inputs) = Text.trim input :: texts inputs := by
  rw [texts, List.map_cons, List.filter_cons_of_pos (by simp [h])]
  rfl

theorem history_submit (s : Session) {input : Text} (h : Text.trim input ≠ []) :
    (s.submit input).2.history = remember s.history (Text.trim input) := by
  rw [submit, if_neg h]
  simp only
  split
  next => rfl
  next => rfl

/-- A run of inputs remembers what they say, one after another. -/
theorem history_submits (s : Session) (inputs : List Text) :
    (s.submits inputs).history = (texts inputs).foldl remember s.history := by
  induction inputs generalizing s with
  | nil => rfl
  | cons input inputs ih =>
    refine (ih (s.submit input).2).trans ?_
    by_cases hblank : Text.trim input = []
    · rw [submit_blank s hblank, texts_cons_blank hblank]
    · rw [history_submit s hblank, texts_cons hblank, List.foldl_cons]

theorem remember_concat (before : List Text) (last input : Text) :
    remember (before ++ [last]) input =
      if last ≠ input then before ++ [last] ++ [input] else before ++ [last] := by
  by_cases h : last = input
  · simp [remember, h]
  · simp [remember, h]

/-- After the last input that is kept, only those are kept that differ from the one before. -/
theorem foldl_remember (before : List Text) (last : Text) (inputs : List Text) :
    inputs.foldl remember (before ++ [last]) = before ++ inputs.destutter' (· ≠ ·) last := by
  induction inputs generalizing before last with
  | nil => rfl
  | cons input inputs ih =>
    rw [List.foldl_cons, remember_concat]
    by_cases h : last ≠ input
    · rw [if_pos h, ih, List.destutter'_cons_pos _ h, List.append_assoc, List.singleton_append]
    · rw [if_neg h, ih, List.destutter'_cons_neg _ h]

/-- From nothing each run of equal inputs is kept as one. -/
theorem foldl_remember_nil (inputs : List Text) :
    inputs.foldl remember [] = inputs.destutter (· ≠ ·) := by
  cases inputs with
  | nil => rfl
  | cons input inputs => exact foldl_remember [] input inputs

theorem getLast?_remember (history : List Text) (input : Text) :
    (remember history input).getLast? = some input := by
  rw [remember]
  split
  next h => exact h
  next => exact List.getLast?_concat

theorem history_of_start {config : Config} {host : Host} (h : start config host = .ok s) :
    s.history = [] := by
  obtain ⟨check, hfiles, -⟩ := of_start_eq_ok h
  rw [start_eq_ok check hfiles host, Except.ok.injEq] at h
  rw [← h]

/-! ## What is shown -/

/-- The entries of a history, each behind its number. -/
theorem numbered_eq_mapIdx (number : Nat) (history : List Text) :
    numbered number history =
      history.mapIdx fun i entry => Text.ofNat (i + number) ++ "  " ++ entry := by
  induction history generalizing number with
  | nil => rfl
  | cons entry history ih =>
    rw [numbered, ih, List.mapIdx_cons, Nat.zero_add]
    simp only [Nat.add_assoc, Nat.add_comm 1]

theorem historyText_of_ne_nil {history : List Text} (h : history ≠ []) :
    historyText history =
      Text.join ['\n'] (history.mapIdx fun i entry => Text.ofNat (i + 1) ++ "  " ++ entry) := by
  rw [historyText, if_neg h, numbered_eq_mapIdx]

/-- A history that is shown is the one with the input that asks for it at its end. -/
theorem results_of_shown {input : Text} {answer : Submission}
    (hanswer : (s.submit input).1 = some answer) (shown : (s.outcome input).1 = .ok .history) :
    let entries := (s.submit input).2.history
    answer.lines.filter Line.isResult = [.output (Text.join ['\n']
      (entries.mapIdx fun i entry => Text.ofNat (i + 1) ++ "  " ++ entry))] ∧
    entries.getLast? = some (Text.trim input) := by
  intro entries
  have hblank := trim_ne_nil_of_submit hanswer
  have hentries : entries = remember s.history (Text.trim input) := history_submit s hblank
  have hlast : entries.getLast? = some (Text.trim input) := by
    rw [hentries]
    exact getLast?_remember s.history (Text.trim input)
  have hne : entries ≠ [] := by
    intro hnil
    rw [hnil] at hlast
    cases hlast
  obtain ⟨found, hfound, hanswered⟩ := answered_submit s hblank
  cases Option.some.inj (hanswer.symm.trans hfound)
  refine ⟨?_, hlast⟩
  rw [hanswered.results, shown, ← historyText_of_ne_nil hne, hentries]
  rfl

/-- Whatever a session that was started has been given and whatever has come of it, its history is
the trimmed inputs that are not blank, with each run of equal ones made one.  An input whose
command line runs `history` and is not redirected gets the history as its result: its entries
line by line, each behind its number from one on, and the last of them is that input. -/
theorem history_of_inputs {config : Config} {host : Host} (h : start config host = .ok s)
    (inputs : List Text) :
    (s.submits inputs).history = (texts inputs).destutter (· ≠ ·) ∧
      ∀ input answer, ((s.submits inputs).submit input).1 = some answer →
        let entries := (s.submits (inputs ++ [input])).history
        (((s.submits inputs).outcome input).1 = .ok .history ↔
          Registry.Runs TerminalCommands.history ((s.submits inputs).commandLine input)) ∧
        (((s.submits inputs).outcome input).1 = .ok .history →
          answer.lines.filter Line.isResult = [.output (Text.join ['\n']
            (entries.mapIdx fun i entry => Text.ofNat (i + 1) ++ "  " ++ entry))] ∧
          entries.getLast? = some (Text.trim input)) := by
  refine ⟨?_, fun input answer hanswer => ⟨Registry.runLine_eq_wish_iff rfl, fun hshown => ?_⟩⟩
  · rw [history_submits, history_of_start h, foldl_remember_nil]
  · have hconcat : s.submits (inputs ++ [input]) = ((s.submits inputs).submit input).2 :=
      List.foldl_concat _ s input inputs
    rw [hconcat]
    exact results_of_shown hanswer hshown

/-- A phrase asks for the history after a repetition, a blank, a failure, a cleared display and an
exit. -/
theorem history_of_inputs_phrase :
    let inputs : List Text := ["pwd", " pwd", "", "nope", "cls", "exit", "pwd"]
    ∃ s, start {} Registry.epoch.host = .ok s ∧
      (s.submits inputs).history = (["pwd", "nope", "cls", "exit", "pwd"] : List Text) ∧
      ∃ answer, ((s.submits inputs).submit "list past command").1 = some answer ∧
        answer.lines.filter Line.isResult =
          [.output "1  pwd\n2  nope\n3  cls\n4  exit\n5  pwd\n6  list past command"] := by
  intro inputs
  have hcheck : Config.check {} = .ok () := by decide +kernel
  have hstart := start_eq_ok hcheck rfl Registry.epoch.host
  obtain ⟨hhistory, hshown⟩ := history_of_inputs hstart inputs
  obtain ⟨answer, hanswer, -⟩ := answered_submit
    (submits _ inputs) (show Text.trim "list past command" ≠ [] by decide)
  refine ⟨_, hstart, hhistory.trans (by decide +kernel), answer, hanswer, ?_⟩
  have hresults := ((hshown _ answer hanswer).2 (by decide +kernel)).1
  exact hresults.trans (by decide +kernel)

end Session

end DriveShell
