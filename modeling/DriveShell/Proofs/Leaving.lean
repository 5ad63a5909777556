import Mathlib.Data.List.Nodup
import DriveShell.Proofs.EarlyFailure
import DriveShell.Proofs.Redirection
import DriveShell.Session

/-!
# Leaving a session

A session is finished by an exit that succeeds.  Two readings of the command line are
involved.  The line is run on the verb that is left of its words when quotes and the
redirection are off, and the session looks at the first run of characters without blanks.

The second reading is the stricter one.  If the first run is a spelling of `exit`, it has
neither a quote nor an operator in it, so it is also the verb that is run.  The reverse
fails for `"exit"` in quotes and for `>x exit`: both run the command and succeed, and the
session goes on.  `finished_submit_iff` says exactly when a submission finishes a session:
the verb that is run is listed under `exit`, the line succeeds, and the verb stands bare at
its beginning.
-/

namespace DriveShell

namespace Registry

variable {scene : Scene} {world : World} {line : Text}

/-- The verb that a command line runs: its first word outside the redirection. -/
def verb? (line : Text) : Option Text :=
  match parts line with
  | .ok (verb :: _, _) => some verb
  | _ => none

/-! ## The command behind a name -/

theorem nodup_builtin_names : (builtin.commands.map (·.name)).Nodup := by decide

/-- A verb that is listed under the name of a built-in command is answered by that command. -/
theorem lookup_of_canonicalVerb {command : Command} (h : command ∈ builtin.commands) {verb : Text}
    (hverb : builtin.canonicalVerb verb = some command.name) :
    isHelp verb = false ∧ builtin.lookup verb = some command := by
  have hother : ∀ c ∈ builtin.commands, helpVerb ≠ c.name := by decide
  rw [canonicalVerb] at hverb
  split at hverb
  next => exact absurd (Option.some.inj hverb) (hother command h)
  next hhelp =>
    obtain ⟨found, hfound, hname⟩ := Option.map_eq_some_iff.1 hverb
    refine ⟨by simpa using hhelp, ?_⟩
    rw [hfound, List.inj_on_of_nodup_map nodup_builtin_names (mem_of_lookup hfound) h hname]

/-- A verb listed under a built-in command runs it, if there are arguments enough. -/
theorem outcome_listed {command : Command} (h : command ∈ builtin.commands) {verb : Text}
    (hverb : builtin.canonicalVerb verb = some command.name) (arguments : List Text)
    (enough : command.leastArguments ≤ arguments.length) :
    (builtin.execute verb arguments).outcome scene world =
      (command.run arguments).outcome scene world := by
  obtain ⟨hhelp, hlookup⟩ := lookup_of_canonicalVerb h hverb
  simp only [outcome_execute, hhelp, hlookup, Bool.false_eq_true, if_false]
  exact if_neg (Nat.not_lt.2 enough)

theorem exit_mem : TerminalCommands.exit ∈ builtin.commands := by simp [builtin]

/-- Only the word itself, in any case of its letters, is listed under `exit`. -/
theorem lower_eq_exit {verb : Text}
    (h : builtin.canonicalVerb verb = some TerminalCommands.exitVerb) :
    Text.lower verb = TerminalCommands.exitVerb := by
  have hspellings : TerminalCommands.exit.spellings = [TerminalCommands.exitVerb] := by decide
  have hspelled := List.find?_some (lookup_of_canonicalVerb exit_mem h).2
  rwa [hspellings, List.contains_iff_mem, List.mem_singleton] at hspelled

theorem outcome_exit {verb : Text}
    (h : builtin.canonicalVerb verb = some TerminalCommands.exitVerb) (arguments : List Text) :
    (builtin.execute verb arguments).outcome scene world = (.ok (.text "Goodbye!"), world) := by
  obtain ⟨hhelp, hlookup⟩ := lookup_of_canonicalVerb exit_mem h
  simp [outcome_execute, hhelp, hlookup, TerminalCommands.exit]

/-! ## Verbs at the beginning of a line -/

/-- If a line begins with a word that holds no quote and does not begin with `>`, then it
runs that word. -/
theorem verb?_of_firstWord {word : Text} (h : Text.firstWord? line = some word)
    (unquoted : '"' ∉ word) (plain : word.head? ≠ some '>') {words : List Text}
    {redirect : Option Redirect} (hparts : parts line = .ok (words, redirect)) :
    verb? line = some word := by
  cases hwords : Words.ofLine line with
  | error failure =>
    rw [parts, hwords] at hparts
    cases hparts
  | ok all =>
    obtain ⟨others, rfl⟩ := List.head?_eq_some_iff.1 (Words.head?_of_firstWord h unquoted hwords)
    have hextract := hparts
    rw [parts_of_words hwords, Redirect.extract_cons_plain plain] at hextract
    cases hothers : Redirect.extract others with
    | error failure =>
      rw [hothers] at hextract
      cases hextract
    | ok extracted =>
      rw [hothers] at hextract
      cases hextract
      rw [verb?, hparts]

/-- What has no character of the quotes or the operator of a line in small letters has none as it
stands. -/
theorem plain_of_lower {verb : Text} (unquoted : '"' ∉ Text.lower verb)
    (plain : '>' ∉ Text.lower verb) : '"' ∉ verb ∧ verb.head? ≠ some '>' := by
  have hlower : ∀ c ∈ verb, c.toLower ∈ Text.lower verb := fun _ => List.mem_map_of_mem
  refine ⟨fun hquote => unquoted ?_, fun hhead => plain ?_⟩
  · exact hlower _ hquote
  · exact hlower _ (List.mem_of_mem_head? hhead)

theorem plain_of_exit {verb : Text}
    (h : builtin.canonicalVerb verb = some TerminalCommands.exitVerb) :
    '"' ∉ verb ∧ verb.head? ≠ some '>' := by
  refine plain_of_lower ?_ ?_
  · rw [lower_eq_exit h]
    decide
  · rw [lower_eq_exit h]
    decide

theorem parts_of_runLine_ok {registry : Registry}
    (h : ((registry.runLine line).outcome scene world).1.isOk = true) :
    ∃ words redirect, parts line = .ok (words, redirect) := by
  rw [outcome_runLine] at h
  cases hparts : parts line with
  | error failure =>
    rw [hparts] at h
    cases h
  | ok extracted => exact ⟨extracted.1, extracted.2, rfl⟩

/-- A line that runs `exit` does not wish to clear the display. -/
theorem runLine_ne_clear {verb : Text} (hverb : verb? line = some verb)
    (h : builtin.canonicalVerb verb = some TerminalCommands.exitVerb) :
    ((builtin.runLine line).outcome scene world).1 ≠ .ok .clear := by
  intro hclear
  have hcourse := runLine_course builtin scene world line
  rw [hclear] at hcourse
  cases hcourse with
  | shown hparts hexecute =>
    rw [verb?, hparts, Option.some.injEq] at hverb
    subst hverb
    rw [outcome_exit h] at hexecute
    cases hexecute

end Registry

namespace Session

open Registry (verb?)

variable {s : Session} {input : Text}

/-- The command line that a submitted input stands for. -/
def commandLine (s : Session) (input : Text) : Text := (s.explain (Text.trim input)).command

/-- The command line that an input stands for succeeds, and its verb is listed under `exit`. -/
structure RunsExit (s : Session) (input : Text) : Prop where
  /-- It succeeds. -/
  succeeds :
    ((Registry.builtin.runLine (s.commandLine input)).outcome s.scene s.world).1.isOk = true
  /-- Its verb is listed under `exit`. -/
  listed :
    (verb? (s.commandLine input)).bind Registry.builtin.canonicalVerb =
      some TerminalCommands.exitVerb

/-- A line whose first run without blanks is listed under `exit` runs that verb, if it can be
read at all. -/
theorem verb?_of_asksToExit {line : Text} (h : asksToExit line = true) {words : List Text}
    {redirect : Option Redirect} (hparts : Registry.parts line = .ok (words, redirect)) :
    ∃ verb, Text.firstWord? line = some verb ∧ verb? line = some verb ∧
      Registry.builtin.canonicalVerb verb = some TerminalCommands.exitVerb := by
  obtain ⟨verb, hfirst, hverb⟩ := Option.bind_eq_some_iff.1 (of_decide_eq_true h)
  obtain ⟨unquoted, plain⟩ := Registry.plain_of_exit hverb
  exact ⟨verb, hfirst, Registry.verb?_of_firstWord hfirst unquoted plain hparts, hverb⟩

/-- Whether a session is finished after an input that is not blank. -/
theorem finished_submit (s : Session) (h : Text.trim input ≠ []) :
    (s.submit input).2.finished =
      (s.finished ||
        (((Registry.builtin.runLine (s.commandLine input)).outcome s.scene s.world).1.isOk &&
          asksToExit (s.commandLine input))) := by
  rw [submit, if_neg h, commandLine]
  simp only
  split
  next hclear =>
    -- The display is cleared, so the verb was not `exit`, and the session did not look.
    cases hasks : asksToExit (s.explain (Text.trim input)).command with
    | false => simp
    | true =>
      have hok : ((Registry.builtin.runLine (s.explain (Text.trim input)).command).outcome
          s.scene s.world).1.isOk = true := by
        rw [hclear]
        rfl
      obtain ⟨words, redirect, hparts⟩ := Registry.parts_of_runLine_ok hok
      obtain ⟨verb, -, hverb, hexit⟩ := verb?_of_asksToExit hasks hparts
      exact absurd hclear (Registry.runLine_ne_clear hverb hexit)
  next => rfl

/-- An input that is not blank leaves the session finished exactly if it was finished
before, or if the command line is an exit that succeeds and begins with its bare verb. -/
theorem finished_submit_iff (s : Session) {input : Text} (h : Text.trim input ≠ []) :
    (s.submit input).2.finished = true ↔
      s.finished = true ∨ s.RunsExit input ∧
        Text.firstWord? (s.commandLine input) = verb? (s.commandLine input) := by
  rw [finished_submit s h, Bool.or_eq_true, Bool.and_eq_true]
  refine or_congr_right ⟨fun ⟨hok, hasks⟩ => ?_, fun ⟨⟨hok, hlisted⟩, hbare⟩ => ⟨hok, ?_⟩⟩
  · obtain ⟨words, redirect, hparts⟩ := Registry.parts_of_runLine_ok hok
    obtain ⟨verb, hfirst, hverb, hexit⟩ := verb?_of_asksToExit hasks hparts
    refine ⟨⟨hok, ?_⟩, by rw [hfirst, hverb]⟩
    rw [hverb]
    exact hexit
  · rw [asksToExit, hbare]
    exact decide_eq_true hlisted

theorem start_eq_ok {config : Config} {files : FileSystem} (check : config.check = .ok ())
    (hfiles : FileSystem.start Reference.drives config = .ok files) (host : Host) :
    start config host = .ok {
      scene := ⟨config, host⟩
      world := { files := files }
      transcript := [.info banner] } := by
  rw [start, check, hfiles]
  rfl

/-- In quotes an exit succeeds like any other, and the session is not finished. -/
theorem quoted_exit_does_not_finish :
    ∃ s, start {} Registry.epoch.host = .ok s ∧ Text.trim "\"exit\"" ≠ [] ∧
      ¬((s.submit "\"exit\"").2.finished = true ↔ s.finished = true ∨ s.RunsExit "\"exit\"") := by
  have hcheck : Config.check {} = .ok () := by decide +kernel
  refine ⟨_, start_eq_ok hcheck rfl Registry.epoch.host, by decide, fun h => ?_⟩
  have hfinished := h.2 (Or.inr ⟨by decide +kernel, by decide +kernel⟩)
  exact absurd hfinished (by decide +kernel)

/-- A bare exit in capitals, before a redirection, finishes a session. -/
theorem finished_submit_iff_bare :
    ∃ s, start {} Registry.epoch.host = .ok s ∧ Text.trim " EXIT > x " ≠ [] ∧
      s.finished = false ∧ s.RunsExit " EXIT > x " ∧
      Text.firstWord? (s.commandLine " EXIT > x ") = verb? (s.commandLine " EXIT > x ") ∧
      (s.submit " EXIT > x ").2.finished = true := by
  have hcheck : Config.check {} = .ok () := by decide +kernel
  have hinput : Text.trim " EXIT > x " ≠ [] := by decide
  refine ⟨_, start_eq_ok hcheck rfl Registry.epoch.host, hinput, rfl, and_assoc.1 ?_⟩
  refine (and_iff_left_of_imp fun h => (finished_submit_iff _ hinput).2 (Or.inr h)).2 ?_
  exact ⟨⟨by decide +kernel, by decide +kernel⟩, by decide +kernel⟩

end Session

end DriveShell
