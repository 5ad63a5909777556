import Mathlib.Data.List.DropRight
import DriveShell.Proofs.Submissions

/-!
# The transcript

A transcript holds what its session has shown since the display was last cleared.  It is the
lines of the answers after the last one that cleared, in order, and the banner stands before them
if there is no such answer (`transcript_since_cleared`).

One input either leaves the transcript alone, or empties it, or appends the lines of its answer
(`transcript_submit`).  A run of inputs therefore folds its answers over the transcript that the
session started with (`transcript_submits`).  What such a fold leaves is read off its last answer,
so that induction is on the answers from their end (`foldl_extend`).

Which inputs clear the display depends on their command lines alone.  Such a line runs a verb
listed under `cls`, and it is not redirected (`runLine_eq_clear_iff`).  How the verb is written
makes no difference, and neither do the file system, the host and the history.
-/

namespace DriveShell

/-! ## Clearing the display -/

namespace Registry

variable {scene : Scene} {world : World} {line : Text}

/-- A command line runs a verb listed under `cls`, and it is not redirected. -/
def Clears (line : Text) : Prop :=
  ∃ verb arguments, parts line = .ok (verb :: arguments, none) ∧
    builtin.canonicalVerb verb = some TerminalCommands.cls.name

theorem runLine_eq_clear_iff :
    ((builtin.runLine line).outcome scene world).1 = .ok .clear ↔ Clears line :=
  runLine_eq_wish_iff rfl

end Registry

/-! ## Answers and transcripts -/

namespace Submission

/-- The transcript after an answer. -/
def extend (transcript : List Line) (answer : Submission) : List Line :=
  if answer.cleared then [] else transcript ++ answer.lines

/-- The answers after the last one that cleared the display. -/
def sinceCleared (answers : List Submission) : List Submission :=
  answers.rtakeWhile (!·.cleared)

/-- Answers in a row leave the lines of those after the last that cleared, and before them the
transcript from the start, if none cleared. -/
theorem foldl_extend (transcript : List Line) (answers : List Submission) :
    answers.foldl extend transcript =
      (if answers.any (·.cleared) then [] else transcript) ++
        (sinceCleared answers).flatMap (·.lines) := by
  induction answers using List.reverseRecOn with
  | nil => exact (List.append_nil transcript).symm
  | append_singleton answers answer ih =>
    rw [List.foldl_concat, extend, sinceCleared, List.rtakeWhile_concat, List.any_append]
    cases hcleared : answer.cleared with
    | true => simp [hcleared]
    | false =>
      rw [ih, sinceCleared]
      simp [hcleared]

end Submission

namespace Session

variable {s : Session} {input : Text}

/-- The answers to some inputs, in order.  A blank input gets none. -/
def answers (s : Session) : List Text → List Submission
  | [] => []
  | input :: inputs => (s.submit input).1.toList ++ (s.submit input).2.answers inputs

theorem submit_blank (s : Session) (h : Text.trim input = []) : s.submit input = (none, s) :=
  if_pos h

/-- One input leaves a transcript alone, or its answer extends it. -/
theorem transcript_submit (s : Session) (input : Text) :
    (s.submit input).2.transcript =
      (s.submit input).1.toList.foldl Submission.extend s.transcript := by
  by_cases h : Text.trim input = []
  · rw [submit_blank s h]
    rfl
  · rw [submit, if_neg h]
    simp only
    split
    next => rfl
    next => rfl

/-- A run of inputs extends the transcript by its answers. -/
theorem transcript_submits (s : Session) (inputs : List Text) :
    (s.submits inputs).transcript = (s.answers inputs).foldl Submission.extend s.transcript := by
  induction inputs generalizing s with
  | nil => rfl
  | cons input inputs ih =>
    rw [answers, List.foldl_append, ← transcript_submit]
    exact ih (s.submit input).2

/-- Every answer of a run is the answer of a session to an input. -/
theorem submitted_of_mem_answers {inputs : List Text} {answer : Submission}
    (h : answer ∈ s.answers inputs) :
    ∃ (t : Session) (input : Text), (t.submit input).1 = some answer := by
  induction inputs generalizing s with
  | nil => cases h
  | cons input inputs ih =>
    rcases List.mem_append.1 h with hfirst | hlater
    · exact ⟨s, input, Option.mem_toList.1 hfirst⟩
    · exact ih hlater

theorem trim_ne_nil_of_submit {answer : Submission} (h : (s.submit input).1 = some answer) :
    Text.trim input ≠ [] := by
  intro hblank
  rw [submit_blank s hblank] at h
  cases h

/-- An answer that clears the display shows nothing and reports a success. -/
theorem bare_of_cleared {answer : Submission} (h : (s.submit input).1 = some answer)
    (cleared : answer.cleared = true) : answer.lines = [] ∧ answer.success = true := by
  rw [submit, if_neg (trim_ne_nil_of_submit h)] at h
  simp only at h
  split at h
  next =>
    cases h
    exact ⟨rfl, rfl⟩
  next =>
    cases h
    cases cleared

theorem cleared_iff {answer : Submission} (h : (s.submit input).1 = some answer) :
    answer.cleared = true ↔ Registry.Clears (s.commandLine input) := by
  obtain ⟨found, hfound, hanswered⟩ := answered_submit s (trim_ne_nil_of_submit h)
  cases Option.some.inj (h.symm.trans hfound)
  exact hanswered.cleared.trans Registry.runLine_eq_clear_iff

theorem transcript_of_start {config : Config} {host : Host} (h : start config host = .ok s) :
    s.transcript = [.info banner] := by
  obtain ⟨check, hfiles, -⟩ := of_start_eq_ok h
  rw [start_eq_ok check hfiles host, Except.ok.injEq] at h
  rw [← h]

/-- The transcript of a session that was started and has taken some inputs is the lines of the
answers since the display was last cleared, and the banner stands before them if it never was.
An answer that clears has no lines and reports a success.  Whatever the session has come to, a
blank input gets no answer and changes nothing, and the answer to another input clears exactly if
the command line of the input runs `cls` and is not redirected. -/
theorem transcript_since_cleared {config : Config} {host : Host} (h : start config host = .ok s)
    (inputs : List Text) :
    (s.submits inputs).transcript =
        (if (s.answers inputs).any (·.cleared) then [] else [.info banner]) ++
          (Submission.sinceCleared (s.answers inputs)).flatMap (·.lines) ∧
      (∀ answer ∈ s.answers inputs, answer.cleared = true →
        answer.lines = [] ∧ answer.success = true) ∧
      (∀ blank, Text.trim blank = [] →
        (s.submits inputs).submit blank = (none, s.submits inputs)) ∧
      ∀ input answer, ((s.submits inputs).submit input).1 = some answer →
        (answer.cleared = true ↔ Registry.Clears ((s.submits inputs).commandLine input)) := by
  refine ⟨?_, fun answer hanswer cleared => ?_, fun blank hblank => submit_blank _ hblank,
    fun input answer hanswer => cleared_iff hanswer⟩
  · rw [transcript_submits, Submission.foldl_extend, transcript_of_start h]
  · obtain ⟨t, input, hsubmitted⟩ := submitted_of_mem_answers hanswer
    exact bare_of_cleared hsubmitted cleared

/-- A phrase clears the display, and a redirected `cls` after it does not. -/
theorem transcript_since_cleared_phrase :
    let inputs : List Text := ["pwd", "clear screen", " ", "cls > x", "hostname"]
    ∃ s, start {} Registry.epoch.host = .ok s ∧
      (s.answers inputs).map (·.cleared) = [false, true, false, false] ∧
      (s.submits inputs).transcript = [
        .command "C:\\Users\\Administrator>cls > x", .command "C:\\Users\\Administrator>hostname",
        .output "CODEMATE-PC"] := by
  intro inputs
  have hcheck : Config.check {} = .ok () := by decide +kernel
  have hstart := start_eq_ok hcheck rfl Registry.epoch.host
  refine ⟨_, hstart, by decide +kernel, ?_⟩
  exact (transcript_since_cleared hstart inputs).1.trans (by decide +kernel)

end Session

end DriveShell
