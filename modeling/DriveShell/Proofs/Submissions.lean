import DriveShell.Proofs.Leaving
import DriveShell.Proofs.Moves

/-!
# Answers to inputs

A session adds to a command line what the shell does not know: the echo, the hint, and the
granting of wishes.  What it reports and what it keeps is still read off the outcome of the
command line (`answered_submit`).  The success flag is that of the outcome, the cleared flag
says that the outcome is the wish to clear the display, and the lines for the outcome are
those that are neither an echo nor a hint.

A wish comes from its own command only: a line whose outcome is a wish runs a verb listed under
that command, and it is not redirected (`parts_of_wish`).  All other commands are `Plain`.

A session is `Reachable` if it has been started and has then taken inputs.  Its file system
is reachable by calls alone, since an input runs at most one command line.
-/

namespace DriveShell

/-! ## Wishes -/

/-- The command that puts out a wish, nothing for an output that is no wish. -/
def Output.wisher? : Output → Option Command
  | .clear => some TerminalCommands.cls
  | .history => some TerminalCommands.history
  | .text _ | .none => Option.none

namespace Shell

/-- A computation whose output is no wish, if it has one. -/
def Plain (action : Shell Output) : Prop :=
  ∀ scene world output, (action.outcome scene world).1 = .ok output → output.wisher? = none

namespace Plain

theorem pure {output : Output} (h : output.wisher? = none) : Shell.Plain (Pure.pure output) := by
  intro scene world found hfound
  rw [outcome_pure, Except.ok.injEq] at hfound
  rw [← hfound, h]

theorem throw (failure : Failure) : Shell.Plain (throwThe Failure failure) := by
  intro scene world output houtput
  cases houtput

/-- What comes last decides. -/
theorem bind {α : Type} {first : Shell α} {second : α → Shell Output}
    (h : ∀ a, (second a).Plain) : (first >>= second).Plain := by
  intro scene world output houtput
  rw [outcome_bind] at houtput
  rcases houtcome : first.outcome scene world with ⟨result, after⟩
  rw [houtcome] at houtput
  cases result with
  | error failure => cases houtput
  | ok a => exact h a scene after output houtput

end Plain

end Shell

/-- A command that puts out no wish but its own. -/
def Command.Modest (command : Command) : Prop :=
  ∀ arguments scene world output, ((command.run arguments).outcome scene world).1 = .ok output →
    ∀ wisher ∈ output.wisher?, wisher.name = command.name

theorem Command.Modest.of_plain {command : Command}
    (h : ∀ arguments, (command.run arguments).Plain) : command.Modest := by
  intro arguments scene world output houtput wisher hwisher
  rw [h arguments scene world output houtput] at hwisher
  cases hwisher

theorem FileCommands.all_modest : ∀ command ∈ all, command.Modest := by
  have hremove : ∀ arguments, (removeOperand arguments).Plain := by
    intro arguments
    rw [removeOperand]
    split
    next => exact .throw _
    next => exact .bind fun _ => .pure rfl
  simp only [all, List.forall_mem_cons]
  refine ⟨?_, ?_, ?_, ?_, ?_, ?_, ?_, ?_, ?_, List.forall_mem_nil _⟩
  · exact .of_plain fun _ => .bind fun _ => .bind fun _ => .pure rfl
  · refine .of_plain fun arguments => ?_
    simp only [cd]
    split
    next => exact .bind fun _ => .pure rfl
    next => exact .bind fun _ => .pure rfl
  · exact .of_plain fun _ => .bind fun _ => .pure rfl
  · refine .of_plain fun arguments => ?_
    cases arguments with
    | nil => exact .throw _
    | cons name rest => exact .bind fun _ => .pure rfl
  · exact .of_plain hremove
  · exact .of_plain hremove
  · refine .of_plain fun arguments => ?_
    cases arguments with
    | nil => exact .throw _
    | cons path rest => exact .bind fun _ => .pure rfl
  · refine .of_plain fun arguments => ?_
    cases arguments with
    | nil => exact .throw _
    | cons source rest =>
      cases rest with
      | nil => exact .throw _
      | cons destination rest => exact .bind fun _ => .pure rfl
  · exact .of_plain fun _ => .bind fun _ => .bind fun _ => .bind fun _ => .pure rfl

theorem MachineCommands.all_modest : ∀ command ∈ all, command.Modest := by
  simp only [all, List.forall_mem_cons]
  refine ⟨?_, ?_, ?_, ?_, ?_, ?_, ?_, ?_, List.forall_mem_nil _⟩
  · exact .of_plain fun _ => .bind fun _ => .pure rfl
  · exact .of_plain fun _ => .bind fun _ => .bind fun _ => .pure rfl
  · exact .of_plain fun _ => .bind fun _ => .pure rfl
  · exact .of_plain fun _ => .pure rfl
  · exact .of_plain fun _ => .bind fun _ => .pure rfl
  · exact .of_plain fun _ => .bind fun _ => .pure rfl
  · exact .of_plain fun _ => .bind fun _ => .pure rfl
  · exact .of_plain fun _ => .bind fun _ => .pure rfl

namespace Registry

theorem builtin_modest : ∀ command ∈ builtin.commands, command.Modest := by
  simp only [builtin, List.forall_mem_append, List.forall_mem_cons]
  refine ⟨⟨⟨FileCommands.all_modest, ?_, List.forall_mem_nil _⟩, MachineCommands.all_modest⟩,
    ?_, ?_, ?_, List.forall_mem_nil _⟩
  · exact .of_plain fun _ => .pure rfl
  · rintro arguments scene world output ⟨⟩ wisher ⟨⟩
    rfl
  · rintro arguments scene world output ⟨⟩ wisher ⟨⟩
    rfl
  · exact .of_plain fun _ => .pure rfl

variable {scene : Scene} {world : World}

/-- A wish comes from a verb that is listed under its command. -/
theorem listed_of_wisher {verb : Text} {arguments : List Text} {output : Output} {wisher : Command}
    (h : ((builtin.execute verb arguments).outcome scene world).1 = .ok output)
    (hwisher : wisher ∈ output.wisher?) : builtin.canonicalVerb verb = some wisher.name := by
  rw [outcome_execute] at h
  split at h
  next =>
    cases h
    cases hwisher
  next hhelp =>
    cases hlookup : builtin.lookup verb with
    | none =>
      rw [hlookup] at h
      cases h
    | some command =>
      simp only [hlookup] at h
      split at h
      next => cases h
      next =>
        have hname : wisher.name = command.name :=
          builtin_modest command (mem_of_lookup hlookup) arguments scene world output h wisher
            hwisher
        rw [canonicalVerb, if_neg hhelp, hlookup, Option.map_some, hname]

/-- A line whose outcome is a wish runs a verb listed under the command of the wish, and is not
redirected. -/
theorem parts_of_wish {line : Text} {output : Output} {wisher : Command}
    (h : ((builtin.runLine line).outcome scene world).1 = .ok output)
    (hwisher : wisher ∈ output.wisher?) :
    ∃ verb arguments, parts line = .ok (verb :: arguments, none) ∧
      builtin.canonicalVerb verb = some wisher.name := by
  have hcourse := runLine_course builtin scene world line
  rw [h] at hcourse
  generalize ((builtin.runLine line).outcome scene world).2 = after at hcourse
  -- A wish that is redirected puts out nothing, so one course is left.
  cases hcourse with
  | blank _ => cases hwisher
  | sent _ _ _ => cases hwisher
  | @shown verb arguments _ _ hparts hexecute =>
    have hresult : ((builtin.execute verb arguments).outcome scene world).1 = .ok output := by
      rw [hexecute]
    exact ⟨verb, arguments, hparts, listed_of_wisher hresult hwisher⟩

theorem wisher_mem {output : Output} {wisher : Command} (h : wisher ∈ output.wisher?) :
    wisher ∈ builtin.commands := by
  cases output with
  | text t => cases h
  | none => cases h
  | clear =>
    cases h
    simp [builtin]
  | history =>
    cases h
    simp [builtin]

/-- A wish is stated whatever the arguments are, and nothing else is done. -/
theorem outcome_wisher {output : Output} {wisher : Command} (h : wisher ∈ output.wisher?)
    {verb : Text} (hverb : builtin.canonicalVerb verb = some wisher.name) (arguments : List Text) :
    (builtin.execute verb arguments).outcome scene world = (.ok output, world) := by
  have hmem := wisher_mem h
  cases output with
  | text t => cases h
  | none => cases h
  | clear =>
    cases h
    exact outcome_listed hmem hverb arguments (Nat.zero_le _)
  | history =>
    cases h
    exact outcome_listed hmem hverb arguments (Nat.zero_le _)

/-- A command line runs a verb listed under a command, and it is not redirected. -/
def Runs (command : Command) (line : Text) : Prop :=
  ∃ verb arguments, parts line = .ok (verb :: arguments, none) ∧
    builtin.canonicalVerb verb = some command.name

/-- A line wishes for something exactly if it runs the command of that wish. -/
theorem runLine_eq_wish_iff {line : Text} {output : Output} {wisher : Command}
    (hwisher : wisher ∈ output.wisher?) :
    ((builtin.runLine line).outcome scene world).1 = .ok output ↔ Runs wisher line := by
  constructor
  · exact fun h => parts_of_wish h hwisher
  · rintro ⟨verb, arguments, hparts, hverb⟩
    simp only [outcome_runLine, hparts, outcome_runWords, outcome_wisher hwisher hverb arguments]

/-- A line whose outcome is the wish to show the history runs a verb listed under `history`. -/
theorem listed_of_history {line : Text}
    (h : ((builtin.runLine line).outcome scene world).1 = .ok .history) :
    (verb? line).bind builtin.canonicalVerb = some TerminalCommands.history.name := by
  obtain ⟨verb, arguments, hparts, hverb⟩ := parts_of_wish h rfl
  rw [verb?, hparts]
  exact hverb

end Registry

/-! ## Submissions -/

/-- Whether a line shows what a command line gave, and is neither an echo nor a hint. -/
def Line.isResult : Line → Bool
  | .output _ | .error _ => true
  | .command _ | .info _ => false

namespace Session

variable {s : Session} {input : Text}

/-- What the command line of an input gives, and the world after it. -/
def outcome (s : Session) (input : Text) : Except Failure Output × World :=
  (Registry.builtin.runLine (s.commandLine input)).outcome s.scene s.world

/-- The answer to an input says what the command line of the input gave. -/
structure Answered (s : Session) (input : Text) (submission : Submission) : Prop where
  /-- It succeeded if the command line did. -/
  success : submission.success = (s.outcome input).1.isOk
  /-- The display is cleared if that is wished for. -/
  cleared : submission.cleared = true ↔ (s.outcome input).1 = .ok .clear
  /-- The result is shown. -/
  results : submission.lines.filter Line.isResult =
    resultLines (remember s.history (Text.trim input)) (s.outcome input).1

theorem filter_opening (s : Session) (input : Text) (reading : Interpretation) :
    (s.opening input reading).filter Line.isResult = [] := by
  rw [opening]
  split
  next => rfl
  next => rfl

theorem filter_resultLines (history : List Text) (result : Except Failure Output) :
    (resultLines history result).filter Line.isResult = resultLines history result := by
  cases result with
  | error failure => rfl
  | ok output =>
    cases output with
    | text t =>
      rw [resultLines]
      split
      next => rfl
      next => rfl
    | none => rfl
    | clear => rfl
    | history => rfl

/-- An input that is not blank is answered. -/
theorem answered_submit (s : Session) (h : Text.trim input ≠ []) :
    ∃ submission, (s.submit input).1 = some submission ∧ s.Answered input submission := by
  rw [submit, if_neg h]
  simp only
  split
  next hclear =>
    have houtcome : (s.outcome input).1 = .ok .clear := hclear
    exact ⟨_, rfl, by rw [houtcome]; rfl, iff_of_true rfl houtcome, by rw [houtcome]; rfl⟩
  next result hother =>
    refine ⟨_, rfl, rfl, iff_of_false Bool.false_ne_true fun hclear => hother hclear, ?_⟩
    rw [List.filter_append, filter_opening, filter_resultLines]
    rfl

/-- The world after an input is the one that its command line leaves. -/
theorem world_submit (s : Session) (h : Text.trim input ≠ []) :
    (s.submit input).2.world = (s.outcome input).2 := by
  rw [submit, if_neg h]
  simp only
  split
  next => rfl
  next => rfl

/-! ## Runs of inputs -/

/-- The session after some inputs. -/
def submits (s : Session) (inputs : List Text) : Session :=
  inputs.foldl (fun s input => (s.submit input).2) s

theorem scene_submit (s : Session) (input : Text) : (s.submit input).2.scene = s.scene := by
  rw [submit]
  split
  next => rfl
  next =>
    simp only
    split
    next => rfl
    next => rfl

theorem scene_submits (s : Session) (inputs : List Text) : (s.submits inputs).scene = s.scene := by
  induction inputs generalizing s with
  | nil => rfl
  | cons input inputs ih => exact (ih _).trans (s.scene_submit input)

/-! ## Reachable sessions -/

/-- The sessions that have been started and have then taken some inputs. -/
inductive Reachable : Session → Prop
  | started {config : Config} {host : Host} {s : Session} :
    start config host = .ok s → Reachable s
  | submitted {s : Session} (input : Text) : Reachable s → Reachable (s.submit input).2
  /-- Time has passed. -/
  | later {s : Session} (time : CivilTime) : Reachable s → Reachable (s.atTime time)

/-- A session starts with settings that pass the check, over their file system. -/
theorem of_start_eq_ok {config : Config} {host : Host} (h : start config host = .ok s) :
    config.check = .ok () ∧ FileSystem.start Reference.drives config = .ok s.world.files ∧
      s.scene = ⟨config, host⟩ := by
  rw [start] at h
  cases hcheck : config.check with
  | error failure =>
    rw [hcheck] at h
    cases h
  | ok _ =>
    rw [hcheck] at h
    cases hfiles : FileSystem.start Reference.drives config with
    | error failure =>
      rw [hfiles] at h
      cases h
    | ok files =>
      rw [hfiles] at h
      cases h
      exact ⟨rfl, rfl, rfl⟩

theorem files_of_start {config : Config} {host : Host} (h : start config host = .ok s) :
    FileSystem.start Reference.drives config = .ok s.world.files :=
  (of_start_eq_ok h).2.1

/-- Sessions lead nowhere that the calls of the file system do not. -/
theorem Reachable.files (h : s.Reachable) : s.world.files.Reachable := by
  induction h with
  | started hstart => exact .opened (files_of_start hstart)
  | @submitted s input _ ih =>
    by_cases hblank : Text.trim input = []
    · rwa [submit, if_pos hblank]
    · rw [world_submit s hblank]
      exact Registry.reachable_runLines ih s.scene [s.commandLine input]
  | later time _ ih => exact ih

end Session

end DriveShell
