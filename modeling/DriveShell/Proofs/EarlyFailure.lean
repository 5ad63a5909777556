import DriveShell.Proofs.Course

/-!
# Failures before the redirection

Of the six places where a command line can fail, five come before its redirection is looked
at: a quote that stays open, an operator without a target, a verb that no command answers
to, too few arguments, and the command itself.  `FailsEarly` lists them with the failure
that each reports.  The sixth is a refused target, and there is no other
(`failsEarly_or_targetRefused`).

A built-in command changes the file system by one call, as the last thing that it does.  If
it fails, the call was not made or was refused, so a line that fails early leaves the file
system as it was (`files_of_failsEarly`).  Its redirection is not carried out either.  Only
the host may have been asked.
-/

namespace DriveShell

theorem Footprint.files_of_error {verb : Option Text} {arguments : List Text}
    {fs after : FileSystem} {failure : Failure}
    (h : Footprint verb arguments fs (.error failure) after) : after = fs := by
  cases h with
  | still _ => rfl

namespace Registry

variable {registry : Registry} {scene : Scene} {world after : World} {line : Text}
  {failure : Failure}

/-! ## The five places -/

/-- How a command line fails before its redirection is looked at. -/
inductive FailsEarly (registry : Registry) (scene : Scene) (world : World) (line : Text) :
    Failure → Prop
  /-- The line cannot be cut into words. -/
  | openQuote {failure : Failure} :
    Words.ofLine line = .error failure →
    FailsEarly registry scene world line failure
  /-- The operator cannot be taken out of the words. -/
  | noTarget {words : List Text} {failure : Failure} :
    Words.ofLine line = .ok words →
    Redirect.extract words = .error failure →
    FailsEarly registry scene world line failure
  /-- No command answers to the verb. -/
  | unknownVerb {verb : Text} {arguments : List Text} {redirect : Option Redirect} :
    parts line = .ok (verb :: arguments, redirect) →
    isHelp verb = false →
    registry.lookup verb = none →
    FailsEarly registry scene world line (.unrecognized verb)
  /-- The command needs more arguments. -/
  | fewArguments {verb : Text} {arguments : List Text} {redirect : Option Redirect}
      {command : Command} :
    parts line = .ok (verb :: arguments, redirect) →
    isHelp verb = false →
    registry.lookup verb = some command →
    arguments.length < command.leastArguments →
    FailsEarly registry scene world line .malformed
  /-- The command fails with its arguments. -/
  | inCommand {verb : Text} {arguments : List Text} {redirect : Option Redirect}
      {command : Command} {failure : Failure} {after : World} :
    parts line = .ok (verb :: arguments, redirect) →
    isHelp verb = false →
    registry.lookup verb = some command →
    command.leastArguments ≤ arguments.length →
    (command.run arguments).outcome scene world = (.error failure, after) →
    FailsEarly registry scene world line failure

/-- A verb runs as help, or as the command that answers to it if there are arguments enough. -/
theorem outcome_execute (registry : Registry) (verb : Text) (arguments : List Text)
    (scene : Scene) (world : World) :
    (registry.execute verb arguments).outcome scene world =
      if isHelp verb then (.ok (.text (registry.help arguments.head?)), world)
      else match registry.lookup verb with
        | none => (.error (.unrecognized verb), world)
        | some command =>
          if arguments.length < command.leastArguments then (.error .malformed, world)
          else (command.run arguments).outcome scene world := by
  unfold execute
  split
  next => rfl
  next =>
    cases registry.lookup verb with
    | none => rfl
    | some command =>
      simp only
      split
      next => rfl
      next => rfl

/-- A line that fails early cannot be parted, or has a command that fails. -/
theorem FailsEarly.parts_or_execute (h : registry.FailsEarly scene world line failure) :
    parts line = .error failure ∨
      ∃ verb arguments redirect after, parts line = .ok (verb :: arguments, redirect) ∧
        (registry.execute verb arguments).outcome scene world = (.error failure, after) := by
  cases h with
  | openQuote hwords =>
    left
    rw [parts, hwords]
    rfl
  | noTarget hwords hextract => exact Or.inl ((parts_of_words hwords).trans hextract)
  | unknownVerb hparts hhelp hlookup =>
    refine Or.inr ⟨_, _, _, world, hparts, ?_⟩
    simp [outcome_execute, hhelp, hlookup]
  | fewArguments hparts hhelp hlookup hfew =>
    refine Or.inr ⟨_, _, _, world, hparts, ?_⟩
    simp [outcome_execute, hhelp, hlookup, hfew]
  | @inCommand _ _ _ _ _ after hparts hhelp hlookup henough hrun =>
    refine Or.inr ⟨_, _, _, after, hparts, ?_⟩
    simp [outcome_execute, hhelp, hlookup, Nat.not_lt.2 henough, hrun]

theorem failsEarly_of_execute {verb : Text} {arguments : List Text} {redirect : Option Redirect}
    (hparts : parts line = .ok (verb :: arguments, redirect))
    (hexecute : (registry.execute verb arguments).outcome scene world = (.error failure, after)) :
    registry.FailsEarly scene world line failure := by
  rw [outcome_execute] at hexecute
  cases hhelp : isHelp verb with
  | true => simp [hhelp] at hexecute
  | false =>
    rw [hhelp] at hexecute
    cases hlookup : registry.lookup verb with
    | none =>
      simp only [hlookup, Bool.false_eq_true, if_false, Prod.mk.injEq, Except.error.injEq]
        at hexecute
      rw [← hexecute.1]
      exact .unknownVerb hparts hhelp hlookup
    | some command =>
      simp only [hlookup, Bool.false_eq_true, if_false] at hexecute
      split at hexecute
      next hfew =>
        rw [Prod.mk.injEq, Except.error.injEq] at hexecute
        rw [← hexecute.1]
        exact .fewArguments hparts hhelp hlookup hfew
      next henough => exact .inCommand hparts hhelp hlookup (Nat.not_lt.1 henough) hexecute

/-- A line that fails does so early or because its target is refused. -/
theorem failsEarly_or_targetRefused
    (h : (registry.runLine line).outcome scene world = (.error failure, after)) :
    registry.FailsEarly scene world line failure ∨
      ∃ verb arguments redirect, failure = redirect.refusal ∧
        registry.TargetRefused scene world line verb arguments redirect after := by
  have hcourse := runLine_course registry scene world line
  rw [h] at hcourse
  cases hcourse with
  | unreadable hparts =>
    left
    cases hwords : Words.ofLine line with
    | error other =>
      rw [parts, hwords] at hparts
      cases hparts
      exact .openQuote hwords
    | ok words =>
      rw [parts_of_words hwords] at hparts
      exact .noTarget hwords hparts
  | failed hparts hexecute => exact Or.inl (failsEarly_of_execute hparts hexecute)
  | @refused verb arguments redirect output _ _ hparts hexecute happly =>
    obtain ⟨hrefused, hfailure⟩ := Redirect.apply_eq_error.1 happly
    exact Or.inr ⟨verb, arguments, redirect, hfailure, hparts, ⟨output, hexecute⟩, hrefused⟩

/-! ## What they leave -/

/-- A command line that fails early is reported as failed with that failure, and leaves the
file system as it was: all names, their order and contents, and the current path.  No
target was made or written to. -/
theorem files_of_failsEarly (h : builtin.FailsEarly scene world line failure) :
    ∃ after, (builtin.runLine line).outcome scene world = (.error failure, after) ∧
      after.files = world.files := by
  rcases h.parts_or_execute with hparts | ⟨verb, arguments, redirect, after, hparts, hexecute⟩
  · exact ⟨world, by rw [outcome_runLine, hparts], rfl⟩
  · refine ⟨after, ?_, ?_⟩
    · simp only [outcome_runLine, hparts, outcome_runWords, hexecute]
    · have hfootprint := execute_footprint verb arguments scene world
      rw [hexecute] at hfootprint
      exact hfootprint.files_of_error

/-- The load is asked for and cannot be had, so nothing is appended to the notes. -/
theorem files_of_failsEarly_mem :
    let world := worldOf [("notes", .file "kept")]
    builtin.FailsEarly epoch world "mem >> notes" (.host "no load") ∧
      ∃ after, (builtin.runLine "mem >> notes").outcome epoch world =
          (.error (.host "no load"), after) ∧ after.files = world.files := by
  have hfails : builtin.FailsEarly epoch (worldOf [("notes", .file "kept")]) "mem >> notes"
      (.host "no load") := .inCommand rfl rfl rfl (Nat.le_refl 0) rfl
  exact ⟨hfails, files_of_failsEarly hfails⟩

end Registry

end DriveShell
