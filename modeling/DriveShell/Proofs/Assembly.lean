import DriveShell.Proofs.Footprint

/-!
# How the built-in commands are put together

A command is put together from a few operations.  It looks at the settings and the file system,
changes the file system, asks the host, and puts out a value or fails.  `Shell.Assembled` is the
relation of computations that are put together in this way, with one constructor for each
operation.  Its flag says whether the host may be asked.

The code of the commands is gone through once here (`builtin_assembled`).  A property that every
operation has, and that is passed on from the parts of a computation to the whole, holds of all
commands by an induction over `Assembled`.

The failures of an assembled computation are about paths, names and arguments.  None of them
says that a verb is unknown: only the registry says that, before it runs a command, and the host
may say anything.
-/

namespace DriveShell

/-! ## Failures of the file system -/

/-- An answer that does not say that a verb is unknown. -/
def Verbless {α : Type} (answer : Except Failure α) : Prop :=
  ∀ failure, answer = .error failure → failure.kind ≠ .unrecognized

namespace Verbless

variable {α β : Type}

theorem ok (a : α) : Verbless (.ok a) := nofun

theorem error {failure : Failure} (h : failure.kind ≠ .unrecognized) :
    Verbless (.error failure : Except Failure α) := by
  rintro _ ⟨⟩
  exact h

theorem map {answer : Except Failure α} (h : Verbless answer) (f : α → β) :
    Verbless (answer.map f) := by
  cases answer with
  | ok a => exact .ok _
  | error failure => exact .error (h failure rfl)

end Verbless

namespace FileSystem

variable (fs : FileSystem)

theorem verbless_list (input : Option Text) : Verbless (fs.list input) := by
  simp only [list]
  split
  next => exact .ok _
  next => exact .error nofun
  next => exact .error nofun

theorem verbless_draw (input : Option Text) : Verbless (fs.draw input) := by
  simp only [draw]
  split
  next => exact .ok _
  next => exact .error nofun
  next => exact .error nofun

theorem verbless_read (input : Text) : Verbless (fs.read input) := by
  simp only [read]
  split
  next => exact .ok _
  next => exact .error nofun
  next => exact .error nofun

theorem verbless_enter (input : Text) : Verbless (fs.enter input) := by
  simp only [enter]
  split
  next => exact .ok _
  next => exact .error nofun
  next => exact .error nofun

theorem verbless_makeDirectory (name : Name) : Verbless (fs.makeDirectory name) := by
  rw [makeDirectory]
  split
  next => exact .error nofun
  next =>
    split
    next => exact .error nofun
    next => exact .ok _

theorem verbless_remove (name : Name) (recursive : Bool) :
    Verbless (fs.remove name recursive) := by
  rw [remove]
  split
  next => exact .error nofun
  next =>
    split
    next => exact .error nofun
    next =>
      split
      next => exact .error nofun
      next => exact .ok _

theorem verbless_copyTo (source destination : Text) :
    Verbless (FileCommands.copyTo source destination fs) := by
  rw [FileCommands.copyTo]
  split
  next => exact .error nofun
  next =>
    split
    next => exact .error nofun
    next => exact (fs.verbless_read source).map _

end FileSystem

/-! ## Assembled computations -/

/-- The computations that are put together from the operations of the shell.  The host is asked
only if it may be. -/
inductive Shell.Assembled (asks : Bool) : {α : Type} → Shell α → Prop
  | pure {α : Type} (a : α) : Assembled asks (Pure.pure a)
  | throw {α : Type} {failure : Failure} :
    failure.kind ≠ .unrecognized → Assembled asks (throwThe Failure failure : Shell α)
  | bind {α β : Type} {first : Shell α} {second : α → Shell β} :
    Assembled asks first → (∀ a, Assembled asks (second a)) → Assembled asks (first >>= second)
  | config : Assembled asks Shell.config
  | files : Assembled asks Shell.files
  | ask {α : Type} {question : FileSystem → Except Failure α} :
    (∀ fs, Verbless (question fs)) → Assembled asks (Shell.ask question)
  | change {step : FileSystem → Except Failure FileSystem} :
    (∀ fs, Verbless (step fs)) → Assembled asks (Shell.change step)
  | clock : asks = true → Assembled asks Shell.clock
  | load : asks = true → Assembled asks Shell.load

/-- The verbs of the commands that ask the host. -/
def Registry.hostVerbs : List Text :=
  [FileCommands.dir.name, MachineCommands.tasklist.name, MachineCommands.systeminfo.name,
    MachineCommands.mem.name, MachineCommands.date.name, MachineCommands.time.name]

/-- A command that is assembled, and asks the host only under one of the verbs for that. -/
def Command.Assembled (command : Command) : Prop :=
  ∀ arguments, (command.run arguments).Assembled (Registry.hostVerbs.contains command.name)

theorem FileCommands.all_assembled : ∀ command ∈ all, command.Assembled := by
  have hremove : ∀ asks arguments, (removeOperand arguments).Assembled asks := by
    intro asks arguments
    rw [removeOperand]
    split
    next => exact .throw nofun
    next => exact .bind (.change fun fs => fs.verbless_remove _ _) fun _ => .pure _
  simp only [all, List.forall_mem_cons]
  refine ⟨fun arguments => ?_, fun arguments => ?_, fun arguments => ?_, fun arguments => ?_,
    hremove _, hremove _, fun arguments => ?_, fun arguments => ?_, fun arguments => ?_,
    List.forall_mem_nil _⟩
  · exact .bind (.clock rfl) fun _ => .bind (.ask fun fs => fs.verbless_list _) fun _ => .pure _
  · simp only [cd]
    split
    next => exact .bind .files fun _ => .pure _
    next => exact .bind (.change fun fs => fs.verbless_enter _) fun _ => .pure _
  · exact .bind .files fun _ => .pure _
  · cases arguments with
    | nil => exact .throw nofun
    | cons name rest =>
      exact .bind (.change fun fs => fs.verbless_makeDirectory name) fun _ => .pure _
  · cases arguments with
    | nil => exact .throw nofun
    | cons path rest => exact .bind (.ask fun fs => fs.verbless_read path) fun _ => .pure _
  · cases arguments with
    | nil => exact .throw nofun
    | cons source rest =>
      cases rest with
      | nil => exact .throw nofun
      | cons destination rest =>
        exact .bind (.change fun fs => fs.verbless_copyTo source destination) fun _ => .pure _
  · exact .bind (.ask fun fs => fs.verbless_draw _) fun _ =>
      .bind .config fun _ => .bind .files fun _ => .pure _

theorem MachineCommands.all_assembled : ∀ command ∈ all, command.Assembled := by
  simp only [all, List.forall_mem_cons]
  refine ⟨?_, ?_, ?_, ?_, ?_, ?_, ?_, ?_, List.forall_mem_nil _⟩
  · exact fun _ => .bind (.load rfl) fun _ => .pure _
  · exact fun _ => .bind (.load rfl) fun _ => .bind .config fun _ => .pure _
  · exact fun _ => .bind (.load rfl) fun _ => .pure _
  · exact fun _ => .pure _
  · exact fun _ => .bind (.clock rfl) fun _ => .pure _
  · exact fun _ => .bind (.clock rfl) fun _ => .pure _
  · exact fun _ => .bind .config fun _ => .pure _
  · exact fun _ => .bind .config fun _ => .pure _

namespace Registry

/-- Every built-in command is assembled. -/
theorem builtin_assembled : ∀ command ∈ builtin.commands, command.Assembled := by
  simp only [builtin, List.forall_mem_append, List.forall_mem_cons]
  exact ⟨⟨⟨FileCommands.all_assembled, fun _ => .pure _, List.forall_mem_nil _⟩,
    MachineCommands.all_assembled⟩, fun _ => .pure _, fun _ => .pure _, fun _ => .pure _,
    List.forall_mem_nil _⟩

variable {verb : Text}

/-- A run of a verb that is listed under a name is assembled like the command of that name. -/
theorem assembled_execute {name : Text} (h : builtin.canonicalVerb verb = some name)
    (arguments : List Text) :
    (builtin.execute verb arguments).Assembled (hostVerbs.contains name) := by
  rw [canonicalVerb] at h
  unfold execute
  split
  next => exact .pure _
  next hhelp =>
    rw [if_neg hhelp] at h
    obtain ⟨command, hlookup, rfl⟩ := Option.map_eq_some_iff.1 h
    rw [hlookup]
    simp only
    split
    next => exact .throw nofun
    next => exact builtin_assembled command (mem_of_lookup hlookup) arguments

/-- A verb that is not listed is unknown. -/
theorem execute_unlisted (h : builtin.canonicalVerb verb = none) (arguments : List Text) :
    builtin.execute verb arguments = throw (.unrecognized verb) := by
  rw [canonicalVerb] at h
  unfold execute
  split at h
  next => cases h
  next hhelp => rw [if_neg hhelp, Option.map_eq_none_iff.1 h]

end Registry

end DriveShell
