import DriveShell.Command.Builtin

/-!
# Footprints of the built-in commands

Of the twenty-one built-in commands five change the file system: `cd`, `mkdir`,
`rmdir`, `del` and `copy`.  A `Footprint` says what a run of a command does to it,
with the verb that the command is listed under, its arguments and its result.  Either
nothing happens, or the command is one of the five, succeeds, and makes the one call
that its arguments name.

The other commands are `Quiet`: they only ask the host, the settings and the file
system.  This is read off their code operation by operation, with one lemma for each
operation of the shell.
-/

namespace DriveShell

/-! ## Quiet computations -/

/-- A computation that leaves the file system as it is, whether it succeeds or fails. -/
def Shell.Quiet {α : Type} (action : Shell α) : Prop :=
  ∀ scene world, (action.outcome scene world).2.files = world.files

namespace Shell.Quiet

variable {α β : Type}

theorem pure (a : α) : Shell.Quiet (Pure.pure a) := fun _ _ => rfl

theorem throw (failure : Failure) : Shell.Quiet (throwThe Failure failure : Shell α) :=
  fun _ _ => rfl

theorem bind {first : Shell α} {second : α → Shell β} (h : first.Quiet)
    (h' : ∀ a, (second a).Quiet) : (first >>= second).Quiet := by
  intro scene world
  have hfirst := h scene world
  rw [Shell.outcome_bind]
  rcases houtcome : first.outcome scene world with ⟨result, after⟩
  rw [houtcome] at hfirst
  cases result with
  | error failure => exact hfirst
  | ok a => exact (h' a scene after).trans hfirst

theorem config : Shell.config.Quiet := fun _ _ => rfl

theorem files : Shell.files.Quiet := fun _ _ => rfl

theorem clock : Shell.clock.Quiet := by
  intro scene world
  rw [Shell.outcome_clock]

theorem load : Shell.load.Quiet := by
  intro scene world
  rw [Shell.outcome_load]

theorem ask (question : FileSystem → Except Failure α) : (Shell.ask question).Quiet := by
  intro scene world
  rw [Shell.outcome_ask]

end Shell.Quiet

/-! ## What a command does to the file system -/

/-- What a command listed under a verb does to a file system: with its arguments, its
result, and the file system after it. -/
inductive Footprint (verb : Option Text) (arguments : List Text) (fs : FileSystem) :
    Except Failure Output → FileSystem → Prop
  /-- Nothing.  A command that fails always does nothing. -/
  | still (result : Except Failure Output) : Footprint verb arguments fs result fs
  /-- It enters a directory. -/
  | entered {after : FileSystem} :
    verb = some FileCommands.cd.name →
    FileCommands.withoutDriveSwitch arguments ≠ [] →
    fs.enter (Text.join [' '] (FileCommands.withoutDriveSwitch arguments)) = .ok after →
    Footprint verb arguments fs (.ok .none) after
  /-- It makes a directory. -/
  | made {name : Name} {rest : List Text} {after : FileSystem} :
    verb = some FileCommands.mkdir.name →
    arguments = name :: rest →
    fs.makeDirectory name = .ok after →
    Footprint verb arguments fs (.ok .none) after
  /-- It removes a child. -/
  | removed {name : Name} {after : FileSystem} :
    verb = some FileCommands.rmdir.name ∨ verb = some FileCommands.del.name →
    FileCommands.firstOperand arguments = some name →
    fs.remove name (FileCommands.isRecursive arguments) = .ok after →
    Footprint verb arguments fs (.ok .none) after
  /-- It copies a file. -/
  | copied {source destination : Text} {rest : List Text} {message : Text} {after : FileSystem} :
    verb = some FileCommands.copy.name →
    arguments = source :: destination :: rest →
    FileCommands.copyTo source destination fs = .ok after →
    Footprint verb arguments fs (.ok (.text message)) after

namespace Command

/-- A command that has a footprint in every run. -/
def Traced (command : Command) : Prop :=
  ∀ arguments scene world,
    Footprint (some command.name) arguments world.files
      ((command.run arguments).outcome scene world).1
      ((command.run arguments).outcome scene world).2.files

theorem Traced.of_quiet {command : Command} (h : ∀ arguments, (command.run arguments).Quiet) :
    command.Traced := by
  intro arguments scene world
  rw [h arguments scene world]
  exact .still _

end Command

/-! ## Commands on files -/

namespace FileCommands

open Shell (Quiet)

theorem dir_traced : dir.Traced :=
  .of_quiet fun _ => .bind .clock fun _ => .bind (.ask _) fun _ => .pure _

theorem pwd_traced : pwd.Traced := .of_quiet fun _ => .bind .files fun _ => .pure _

theorem tree_traced : tree.Traced :=
  .of_quiet fun _ => .bind (.ask _) fun _ => .bind .config fun _ => .bind .files fun _ => .pure _

theorem type_traced : type.Traced := by
  refine .of_quiet fun arguments => ?_
  cases arguments with
  | nil => exact .throw _
  | cons path rest => exact .bind (.ask _) fun _ => .pure _

/-- A change followed by a fixed output either fails and does nothing or is the change. -/
theorem outcome_change_return (step : FileSystem → Except Failure FileSystem) (output : Output)
    (scene : Scene) (world : World) :
    (do Shell.change step; return output : Shell Output).outcome scene world =
      match step world.files with
      | .ok files => (.ok output, { world with files := files })
      | .error failure => (.error failure, world) := by
  rw [Shell.outcome_bind, Shell.outcome_change]
  cases step world.files with
  | ok files => rfl
  | error failure => rfl

theorem cd_traced : cd.Traced := by
  intro arguments scene world
  simp only [cd]
  cases hwords : withoutDriveSwitch arguments with
  | nil => exact .still _
  | cons word words =>
    simp only [outcome_change_return]
    cases henter : world.files.enter (Text.join [' '] (word :: words)) with
    | error failure => exact .still _
    | ok files =>
      refine .entered rfl ?_ ?_
      · simp [hwords]
      · rw [hwords, henter]

theorem mkdir_traced : mkdir.Traced := by
  intro arguments scene world
  cases arguments with
  | nil => exact .still _
  | cons name rest =>
    simp only [mkdir, outcome_change_return]
    cases hmake : world.files.makeDirectory name with
    | error failure => exact .still _
    | ok files => exact .made rfl rfl hmake

/-- `rmdir` and `del` do the same under two names. -/
theorem removeOperand_footprint {verb : Option Text}
    (h : verb = some rmdir.name ∨ verb = some del.name) (arguments : List Text) (scene : Scene)
    (world : World) :
    Footprint verb arguments world.files
      ((removeOperand arguments).outcome scene world).1
      ((removeOperand arguments).outcome scene world).2.files := by
  unfold removeOperand
  cases hname : firstOperand arguments with
  | none => exact .still _
  | some name =>
    simp only [outcome_change_return]
    cases hremove : world.files.remove name (isRecursive arguments) with
    | error failure => exact .still _
    | ok files => exact .removed h hname hremove

theorem rmdir_traced : rmdir.Traced := removeOperand_footprint (Or.inl rfl)

theorem del_traced : del.Traced := removeOperand_footprint (Or.inr rfl)

theorem copy_traced : copy.Traced := by
  intro arguments scene world
  match arguments with
  | [] => exact .still _
  | [_] => exact .still _
  | source :: destination :: rest =>
    simp only [copy, outcome_change_return]
    cases hcopy : copyTo source destination world.files with
    | error failure => exact .still _
    | ok files => exact .copied rfl rfl hcopy

theorem all_traced : ∀ command ∈ all, command.Traced := by
  simp only [all, List.forall_mem_cons]
  exact ⟨dir_traced, cd_traced, pwd_traced, mkdir_traced, rmdir_traced, del_traced, type_traced,
    copy_traced, tree_traced, List.forall_mem_nil _⟩

end FileCommands

/-! ## Commands about the machine and the terminal -/

theorem MachineCommands.all_traced : ∀ command ∈ all, command.Traced := by
  simp only [all, List.forall_mem_cons]
  refine ⟨?_, ?_, ?_, ?_, ?_, ?_, ?_, ?_, List.forall_mem_nil _⟩
  · exact .of_quiet fun _ => .bind .load fun _ => .pure _
  · exact .of_quiet fun _ => .bind .load fun _ => .bind .config fun _ => .pure _
  · exact .of_quiet fun _ => .bind .load fun _ => .pure _
  · exact .of_quiet fun _ => .pure _
  · exact .of_quiet fun _ => .bind .clock fun _ => .pure _
  · exact .of_quiet fun _ => .bind .clock fun _ => .pure _
  · exact .of_quiet fun _ => .bind .config fun _ => .pure _
  · exact .of_quiet fun _ => .bind .config fun _ => .pure _

/-! ## The registry -/

namespace Registry

theorem builtin_traced : ∀ command ∈ builtin.commands, command.Traced := by
  simp only [builtin, List.forall_mem_append, List.forall_mem_cons]
  refine ⟨⟨⟨FileCommands.all_traced, ?_, List.forall_mem_nil _⟩, MachineCommands.all_traced⟩,
    ?_, ?_, ?_, List.forall_mem_nil _⟩
  · exact .of_quiet fun _ => .pure _
  · exact .of_quiet fun _ => .pure _
  · exact .of_quiet fun _ => .pure _
  · exact .of_quiet fun _ => .pure _

theorem mem_of_lookup {registry : Registry} {verb : Text} {command : Command}
    (h : registry.lookup verb = some command) : command ∈ registry.commands :=
  List.mem_reverse.1 (List.mem_of_find?_eq_some h)

/-- Every run of a verb has a footprint. -/
theorem execute_footprint (verb : Text) (arguments : List Text) (scene : Scene) (world : World) :
    Footprint (builtin.canonicalVerb verb) arguments world.files
      ((builtin.execute verb arguments).outcome scene world).1
      ((builtin.execute verb arguments).outcome scene world).2.files := by
  unfold execute canonicalVerb
  split
  next => exact .still _
  next =>
    cases hlookup : builtin.lookup verb with
    | none => exact .still _
    | some command =>
      simp only [Option.map_some]
      split
      next => exact .still _
      next => exact builtin_traced command (mem_of_lookup hlookup) arguments scene world

theorem footprint_of_outcome {verb : Text} {arguments : List Text} {scene : Scene}
    {world after : World} {result : Except Failure Output}
    (h : (builtin.execute verb arguments).outcome scene world = (result, after)) :
    Footprint (builtin.canonicalVerb verb) arguments world.files result after.files := by
  have hfootprint := execute_footprint verb arguments scene world
  rwa [h] at hfootprint

end Registry

end DriveShell
