import DriveShell.Proofs.Submissions
import DriveShell.Proofs.Trimming

/-!
# Reading a command line again

The command line that an input stands for can itself be submitted.  It is then read once
more, and nothing new comes of it (`command_ofInput_command`).  On the direct route and on
the fallback the command line is the trimmed input, which is read as before.  On the route
of a phrase it begins with the verb of a rule, and these verbs are all known, so the second
reading takes the direct route.

The second reading does trim.  A phrase can leave blanks at the end of its command line,
when they stood inside quotes.  They are no part of a word, so the line runs alike without
them.  What differs between the two submissions is the echo, the hint and the remembered
input, and of these only the last can be seen in a result, by a wish to show the history.
-/

namespace DriveShell

/-! ## The verbs of the rules -/

namespace Rule

variable {rule : Rule}

theorem mem_of_first? {input : Text} {captures : Captures}
    (h : first? input = some (rule, captures)) : rule ∈ all := by
  obtain ⟨found, hfound, hsearch⟩ := List.exists_of_findSome?_eq_some h
  obtain ⟨_, -, hrule⟩ := Option.map_eq_some_iff.1 hsearch
  cases hrule
  exact hfound

theorem isKnownVerb_verb : ∀ rule ∈ all, Vocabulary.isKnownVerb rule.verb = true := by decide

theorem solid_verb :
    ∀ rule ∈ all, rule.verb ≠ [] ∧ rule.verb.all (!Text.isBlank ·) = true := by decide

/-- Whatever the arguments are, the first word of a command line is the verb. -/
theorem firstWord?_command (h : rule ∈ all) (home : Text) (captures : Captures) :
    Text.firstWord? (rule.command home captures) = some rule.verb := by
  obtain ⟨nonempty, htest⟩ := solid_verb rule h
  have solid : ∀ c ∈ rule.verb, Text.isBlank c = false := Text.solid_of_all htest
  rw [command]
  cases (rule.arguments.map fun part => clean (raw home captures part)).filter (· ≠ []) with
  | nil =>
    have hverb : Text.firstWord? (rule.verb ++ []) = some rule.verb :=
      Text.firstWord?_append nonempty solid (by simp [Words.Parted])
    rw [List.append_nil] at hverb
    rw [Text.join_singleton, hverb]
  | cons argument arguments =>
    rw [Text.join_cons_cons, List.append_assoc]
    refine Text.firstWord?_append nonempty solid fun c hc => ?_
    cases hc
    decide

theorem opensWithVerb_command (h : rule ∈ all) (home : Text) (captures : Captures) :
    Vocabulary.opensWithVerb (rule.command home captures) = true := by
  rw [Vocabulary.opensWithVerb, firstWord?_command h, Option.any_some, isKnownVerb_verb rule h]

end Rule

/-! ## Reading twice -/

namespace Route

variable {input : Text}

/-- Only a text that begins with a known verb takes the direct route. -/
theorem opensWithVerb_of_direct (h : Route.of input = .direct) :
    Vocabulary.opensWithVerb input = true := by
  rw [Route.of] at h
  split at h
  next hverb => exact hverb
  next =>
    split at h
    next => cases h
    next => cases h

/-- The route of a phrase is that of the first rule that fits. -/
theorem first?_of_phrase {rule : Rule} {captures : Captures}
    (h : Route.of input = .phrase rule captures) : Rule.first? input = some (rule, captures) := by
  rw [Route.of] at h
  split at h
  next => cases h
  next =>
    split at h
    next hfirst =>
      cases h
      exact hfirst
    next => cases h

end Route

namespace Interpretation

variable {input : Text}

/-- An input that begins with a known verb stands for itself. -/
theorem command_of_opensWithVerb (home : Text) (h : Vocabulary.opensWithVerb input = true) :
    (ofInput home input).command = Text.trim input := by
  have hroute : Route.of (Text.trim input) = .direct := by
    rw [Route.of, Vocabulary.opensWithVerb_trim, if_pos h]
  simp only [ofInput, hroute, ofRoute]

/-- An input stands for itself or for a line that begins with a known verb. -/
theorem command_ofInput (home input : Text) :
    (ofInput home input).command = Text.trim input ∨
      Vocabulary.opensWithVerb (ofInput home input).command = true := by
  rw [ofInput]
  cases hroute : Route.of (Text.trim input) with
  | direct => exact Or.inl rfl
  | fallback => exact Or.inl rfl
  | phrase rule captures =>
    have hrule := Rule.mem_of_first? (Route.first?_of_phrase hroute)
    exact Or.inr (Rule.opensWithVerb_command hrule home captures)

/-- A command line that an input stands for is read as itself. -/
theorem command_ofInput_command (home input : Text) :
    (ofInput home (ofInput home input).command).command =
      Text.trim (ofInput home input).command := by
  rcases command_ofInput home input with hsame | hverb
  · rw [hsame, ofInput_trim, hsame, Text.trim_trim]
  · exact command_of_opensWithVerb home hverb

theorem trim_command_ne_nil (home : Text) (h : Text.trim input ≠ []) :
    Text.trim (ofInput home input).command ≠ [] := by
  rcases command_ofInput home input with hsame | hverb
  · rwa [hsame, Text.trim_trim]
  · obtain ⟨verb, hfirst, -⟩ := (Option.any_eq_true _ _).1 hverb
    exact Text.trim_ne_nil_of_firstWord? hfirst

end Interpretation

/-! ## Running twice -/

theorem Registry.runLine_trim (registry : Registry) (line : Text) :
    registry.runLine (Text.trim line) = registry.runLine line := by
  rw [runLine, runLine, Words.ofLine_trim]

namespace Session

open Registry (verb?)

variable {s : Session} {input : Text}

theorem asksToExit_trim (line : Text) : asksToExit (Text.trim line) = asksToExit line := by
  rw [asksToExit, asksToExit, Text.firstWord?_trim]

theorem explain_trim (s : Session) (input : Text) : s.explain (Text.trim input) = s.explain input :=
  Interpretation.ofInput_trim s.config.home input

theorem commandLine_explained (s : Session) (input : Text) :
    s.commandLine (s.explain input).command = Text.trim (s.commandLine input) := by
  rw [commandLine, commandLine, explain_trim, explain_trim]
  exact Interpretation.command_ofInput_command s.config.home input

theorem outcome_explained (s : Session) (input : Text) :
    s.outcome (s.explain input).command = s.outcome input := by
  rw [outcome, outcome, commandLine_explained, Registry.runLine_trim]

/-- The command line of an input runs a verb that is listed under `history`. -/
def AsksForHistory (s : Session) (input : Text) : Prop :=
  (verb? (s.commandLine input)).bind Registry.builtin.canonicalVerb =
    some TerminalCommands.history.name

/-- Apart from the wish to show the history, what is shown for a result does not depend on the
inputs that the session remembers. -/
theorem resultLines_of_not_history (h : ¬s.AsksForHistory input) (history other : List Text) :
    resultLines other (s.outcome input).1 = resultLines history (s.outcome input).1 := by
  cases hresult : (s.outcome input).1 with
  | error failure => rfl
  | ok output =>
    cases output with
    | text t => rfl
    | none => rfl
    | clear => rfl
    | history => exact absurd (Registry.listed_of_history hresult) h

/-- Two inputs lead from a session to the same: they are both answered, with the same flags
and, apart from the history, with the same results, and they leave the same world and finish
the session alike. -/
structure RunsAlike (s : Session) (input other : Text) : Prop where
  /-- The answers. -/
  answers : ∃ first second, (s.submit input).1 = some first ∧ (s.submit other).1 = some second ∧
    second.success = first.success ∧ second.cleared = first.cleared ∧
    (¬s.AsksForHistory input →
      second.lines.filter Line.isResult = first.lines.filter Line.isResult)
  /-- The world, that is, all drives, the current path, and the calls to the host. -/
  world : (s.submit other).2.world = (s.submit input).2.world
  /-- Whether the session is finished. -/
  finished : (s.submit other).2.finished = (s.submit input).2.finished

/-- What is explained is what runs.  An input and the command line that it stands for lead to
the same from every session, and the command line of a command line is that line, trimmed. -/
theorem explained_command_runs_alike (s : Session) :
    (∀ input, Text.trim input ≠ [] → s.RunsAlike input (s.explain input).command) ∧
      ∀ input, (s.explain (s.explain input).command).command =
        Text.trim (s.explain input).command := by
  refine ⟨fun input hinput => ?_,
    fun input => Interpretation.command_ofInput_command s.config.home input⟩
  have hcommand : Text.trim (s.explain input).command ≠ [] :=
    Interpretation.trim_command_ne_nil s.config.home hinput
  have houtcome := s.outcome_explained input
  refine ⟨?_, ?_, ?_⟩
  · obtain ⟨first, hfirst, answered⟩ := s.answered_submit hinput
    obtain ⟨second, hsecond, again⟩ := s.answered_submit hcommand
    refine ⟨first, second, hfirst, hsecond, ?_, ?_, fun hhistory => ?_⟩
    · rw [again.success, houtcome, answered.success]
    · rw [Bool.eq_iff_iff, again.cleared, houtcome, answered.cleared]
    · rw [again.results, houtcome, answered.results]
      exact resultLines_of_not_history hhistory _ _
  · rw [world_submit s hcommand, houtcome, world_submit s hinput]
  · have hresult := congrArg (·.1.isOk) houtcome
    rw [finished_submit s hcommand, finished_submit s hinput, commandLine_explained,
      Registry.runLine_trim, asksToExit_trim]

/-- A quoted name keeps its blanks in the command line, and the command line runs alike. -/
theorem explained_command_runs_alike_quoted :
    ∃ s, start {} Registry.epoch.host = .ok s ∧ Text.trim " go to ' Documents ' " ≠ [] ∧
      (s.explain " go to ' Documents ' ").command = "cd  Documents ".toList ∧
      s.RunsAlike " go to ' Documents ' " "cd  Documents " := by
  have hcheck : Config.check {} = .ok () := by decide +kernel
  have hinput : Text.trim " go to ' Documents ' " ≠ [] := by decide
  refine ⟨_, start_eq_ok hcheck rfl Registry.epoch.host, hinput, by decide +kernel, ?_⟩
  exact (explained_command_runs_alike _).1 _ hinput

end Session

end DriveShell
