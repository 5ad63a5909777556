import DriveShell.FileSystem.Reference
import DriveShell.Proofs.Footprint

/-!
# The course of a command line

A command line can end in six ways.  It cannot be read, it is blank, its command
fails, or its command succeeds and then there is no redirection, or the redirection is
carried out, or it is refused.  `Course` lists them, each with the world at the end,
and every run of a line takes one of them (`runLine_course`).

The last way is the one where a failed line can leave something behind.  The command
has run before its redirection is looked at, and what it did stays done: a line that
makes a directory and sends its output to a forbidden name is reported as failed, and
the directory is there.  What holds is that the redirection itself adds nothing, and
that verbs other than the five that change the file system leave it as it was.
-/

namespace DriveShell

/-! ## Redirections -/

namespace Redirect

variable {redirect : Redirect} {output : Text} {fs after : FileSystem} {failure : Failure}

/-- The target of a redirection holds a backslash, a slash or a colon. -/
def Reserved (redirect : Redirect) : Prop :=
  '\\' ∈ redirect.target ∨ '/' ∈ redirect.target ∨ ':' ∈ redirect.target

instance (redirect : Redirect) : Decidable redirect.Reserved := inferInstanceAs (Decidable (_ ∨ _))

/-- The target of a redirection is refused: it holds a reserved character or leads to a
directory. -/
def Refused (redirect : Redirect) (fs : FileSystem) : Prop :=
  redirect.Reserved ∨ ∃ children, fs.find? redirect.target = some (.directory children)

/-- What is reported of a target that is refused. -/
def refusal (redirect : Redirect) : Failure :=
  if redirect.Reserved then .invalidName redirect.target else .accessDenied redirect.target

theorem hasReserved_iff : Path.hasReserved redirect.target = true ↔ redirect.Reserved := by
  simp only [Path.hasReserved, Path.delimiter, Bool.or_eq_true, List.contains_iff_mem, or_assoc,
    Reserved]

theorem apply_eq_error :
    redirect.apply output fs = .error failure ↔
      redirect.Refused fs ∧ failure = redirect.refusal := by
  rw [apply, Refused, refusal]
  by_cases hreserved : redirect.Reserved
  · rw [if_pos (hasReserved_iff.2 hreserved), if_pos hreserved, Except.error.injEq]
    exact ⟨fun h => ⟨Or.inl hreserved, h.symm⟩, fun h => h.2.symm⟩
  · rw [if_neg (mt hasReserved_iff.1 hreserved), if_neg hreserved]
    cases hfind : fs.find? redirect.target with
    | none => simp [hreserved]
    | some node =>
      cases node with
      | file content => simp [hreserved, Node.isDirectory]
      | directory children => simp [Node.isDirectory, eq_comm]

theorem apply_eq_ok :
    redirect.apply output fs = .ok after ↔
      Path.hasReserved redirect.target = false ∧
      (fs.find? redirect.target).any Node.isDirectory = false ∧
      after = fs.writeFile redirect.target
        (redirect.content output (fs.find? redirect.target)) := by
  rw [apply]
  cases Path.hasReserved redirect.target with
  | true => simp
  | false =>
    simp only [Bool.false_eq_true, if_false, true_and]
    cases hfind : (fs.find? redirect.target).any Node.isDirectory with
    | true => simp
    | false => simp only [Bool.false_eq_true, if_false, Except.ok.injEq, true_and, eq_comm]

end Redirect

/-! ## The six ways -/

namespace Registry

variable {registry : Registry} {scene : Scene} {world : World} {line : Text}

/-- The words of a command line without its redirection, and the redirection. -/
def parts (line : Text) : Except Failure (List Text × Option Redirect) :=
  (Words.ofLine line).bind Redirect.extract

theorem parts_of_words {words : List Text} (h : Words.ofLine line = .ok words) :
    parts line = Redirect.extract words := by
  rw [parts, h]
  rfl

/-- How a command line goes from a world to a result and another world. -/
inductive Course (registry : Registry) (scene : Scene) (world : World) (line : Text) :
    Except Failure Output → World → Prop
  /-- A quote stays open, or an operator has no target. -/
  | unreadable {failure : Failure} :
    parts line = .error failure →
    Course registry scene world line (.error failure) world
  /-- There is no command. -/
  | blank {redirect : Option Redirect} :
    parts line = .ok ([], redirect) →
    Course registry scene world line (.ok .none) world
  /-- The command fails. -/
  | failed {verb : Text} {arguments : List Text} {redirect : Option Redirect} {failure : Failure}
      {after : World} :
    parts line = .ok (verb :: arguments, redirect) →
    (registry.execute verb arguments).outcome scene world = (.error failure, after) →
    Course registry scene world line (.error failure) after
  /-- The command succeeds, and its output is the result. -/
  | shown {verb : Text} {arguments : List Text} {output : Output} {after : World} :
    parts line = .ok (verb :: arguments, none) →
    (registry.execute verb arguments).outcome scene world = (.ok output, after) →
    Course registry scene world line (.ok output) after
  /-- The command succeeds, and its output is sent into a file. -/
  | sent {verb : Text} {arguments : List Text} {redirect : Redirect} {output : Output}
      {after : World} {files : FileSystem} :
    parts line = .ok (verb :: arguments, some redirect) →
    (registry.execute verb arguments).outcome scene world = (.ok output, after) →
    redirect.apply output.redirected after.files = .ok files →
    Course registry scene world line (.ok .none) { after with files := files }
  /-- The command succeeds, and its redirection is refused. -/
  | refused {verb : Text} {arguments : List Text} {redirect : Redirect} {output : Output}
      {after : World} {failure : Failure} :
    parts line = .ok (verb :: arguments, some redirect) →
    (registry.execute verb arguments).outcome scene world = (.ok output, after) →
    redirect.apply output.redirected after.files = .error failure →
    Course registry scene world line (.error failure) after

/-- A command line is run on its parts. -/
theorem outcome_runLine (registry : Registry) (line : Text) (scene : Scene) (world : World) :
    (registry.runLine line).outcome scene world =
      match parts line with
      | .ok (words, redirect) => (registry.runWords words redirect).outcome scene world
      | .error failure => (.error failure, world) := by
  rw [runLine, Shell.outcome_bind, Shell.outcome_ofExcept, parts]
  cases Words.ofLine line with
  | error failure => rfl
  | ok words =>
    simp only [Shell.outcome_bind, Shell.outcome_ofExcept, Except.bind]
    cases Redirect.extract words with
    | error failure => rfl
    | ok extracted => rfl

/-- A command runs first, and its redirection in the world that it left. -/
theorem outcome_runWords (registry : Registry) (verb : Text) (arguments : List Text)
    (redirect : Option Redirect) (scene : Scene) (world : World) :
    (registry.runWords (verb :: arguments) redirect).outcome scene world =
      match (registry.execute verb arguments).outcome scene world, redirect with
      | (.error failure, after), _ => (.error failure, after)
      | (.ok output, after), none => (.ok output, after)
      | (.ok output, after), some redirect =>
        match redirect.apply output.redirected after.files with
        | .ok files => (.ok .none, { after with files := files })
        | .error failure => (.error failure, after) := by
  rw [runWords, Shell.outcome_bind]
  rcases (registry.execute verb arguments).outcome scene world with ⟨result, after⟩
  cases result with
  | error failure => rfl
  | ok output =>
    cases redirect with
    | none => rfl
    | some redirect =>
      simp only [Shell.outcome_bind, Shell.outcome_change]
      cases redirect.apply output.redirected after.files with
      | ok files => rfl
      | error failure => rfl

/-- Every run of a command line takes one of the courses. -/
theorem runLine_course (registry : Registry) (scene : Scene) (world : World) (line : Text) :
    Course registry scene world line ((registry.runLine line).outcome scene world).1
      ((registry.runLine line).outcome scene world).2 := by
  rw [outcome_runLine]
  cases hparts : parts line with
  | error failure => exact .unreadable hparts
  | ok extracted =>
    obtain ⟨words, redirect⟩ := extracted
    cases words with
    | nil => exact .blank hparts
    | cons verb arguments =>
      simp only [outcome_runWords]
      rcases hexecute : (registry.execute verb arguments).outcome scene world with ⟨result, after⟩
      cases result with
      | error failure => exact .failed hparts hexecute
      | ok output =>
        cases redirect with
        | none => exact .shown hparts hexecute
        | some redirect =>
          cases happly : redirect.apply output.redirected after.files with
          | ok files => simpa only [happly] using .sent hparts hexecute happly
          | error failure => simpa only [happly] using .refused hparts hexecute happly

/-! ## Refused targets -/

/-- A command line fails because the target of its redirection is refused.  Nothing else is
wrong with it: it can be read, and its command succeeds. -/
structure TargetRefused (registry : Registry) (scene : Scene) (world : World) (line verb : Text)
    (arguments : List Text) (redirect : Redirect) (after : World) : Prop where
  /-- The line is a command and a redirection. -/
  parted : parts line = .ok (verb :: arguments, some redirect)
  /-- The command succeeds. -/
  succeeds : ∃ output,
    (registry.execute verb arguments).outcome scene world = (.ok output, after)
  /-- In the world that the command leaves, the target is refused. -/
  refused : redirect.Refused after.files

/-- The verbs of the commands that change the file system. -/
def changingVerbs : List Text :=
  [FileCommands.cd.name, FileCommands.mkdir.name, FileCommands.rmdir.name, FileCommands.del.name,
    FileCommands.copy.name]

/-- A verb that is not listed under one of the changing ones leaves the file system alone. -/
theorem files_of_footprint {verb : Option Text} {arguments : List Text} {fs after : FileSystem}
    {result : Except Failure Output} (h : Footprint verb arguments fs result after)
    (other : ∀ name ∈ changingVerbs, verb ≠ some name) : after = fs := by
  cases h with
  | still _ => rfl
  | entered hverb _ _ => exact absurd hverb (other _ (by simp [changingVerbs]))
  | made hverb _ _ => exact absurd hverb (other _ (by simp [changingVerbs]))
  | removed hverb _ _ =>
    rcases hverb with hverb | hverb
    · exact absurd hverb (other _ (by simp [changingVerbs]))
    · exact absurd hverb (other _ (by simp [changingVerbs]))
  | copied hverb _ _ => exact absurd hverb (other _ (by simp [changingVerbs]))

/-- A scene with the default settings, a clock at the start of 1970, and no load. -/
def epoch : Scene :=
  ⟨{}, .scripted (.ok ⟨1970, 1, 1, 0, 0, 0, .thursday⟩) [] (.error (.host "no load"))⟩

/-- A world with some nodes on its only drive, where the session stands. -/
def worldOf (nodes : List (Name × Node)) : World where
  files := {
    drives := .ofList [("C:", Reference.folder nodes)]
    cwd := "C:"
    volumeSerial := []
    freeBytes := 0
    primaryDrive := "C:"
    protectedNames := [] }

/-- A refused target does not undo the command: `mkdir x > a\b` is reported as failed and
makes `x`. -/
theorem targetRefused_changes_files :
    ¬∀ scene world line verb arguments redirect after,
      builtin.TargetRefused scene world line verb arguments redirect after →
        ∀ failure, ((builtin.runLine line).outcome scene world).1 = .error failure →
          ((builtin.runLine line).outcome scene world).2.files = world.files := by
  intro h
  have hrefused : builtin.TargetRefused epoch (worldOf []) "mkdir x > a\\b" "mkdir" ["x"]
      ⟨"a\\b", false⟩ (worldOf [("x", Reference.folder [])]) :=
    ⟨rfl, ⟨.none, rfl⟩, Or.inl (by decide)⟩
  have hrun : (builtin.runLine "mkdir x > a\\b").outcome epoch (worldOf []) =
      (.error (.invalidName "a\\b"), worldOf [("x", Reference.folder [])]) := rfl
  have hequal := h _ _ _ _ _ _ _ hrefused (.invalidName "a\\b") (by rw [hrun])
  rw [hrun] at hequal
  exact absurd hequal (by decide)

/-- A command line whose target is refused is reported as failed: with the target as an
invalid name if a reserved character is in it, and otherwise with access denied to the target.
It leaves the world that its command alone leaves.  Unless the verb is one of the five that
change the file system, that is the file system from before the line. -/
theorem outcome_of_targetRefused {verb : Text} {arguments : List Text} {redirect : Redirect}
    {after : World} (h : builtin.TargetRefused scene world line verb arguments redirect after) :
    (builtin.runLine line).outcome scene world = (.error redirect.refusal, after) ∧
    (∃ output, (builtin.execute verb arguments).outcome scene world = (.ok output, after)) ∧
    ((∀ name ∈ changingVerbs, builtin.canonicalVerb verb ≠ some name) →
      after.files = world.files) := by
  obtain ⟨output, hexecute⟩ := h.succeeds
  refine ⟨?_, ⟨output, hexecute⟩, fun other => ?_⟩
  · have happly : redirect.apply output.redirected after.files = .error redirect.refusal :=
      Redirect.apply_eq_error.2 ⟨h.refused, rfl⟩
    simp only [outcome_runLine, h.parted, outcome_runWords, hexecute, happly]
  · have hfootprint := execute_footprint verb arguments scene world
    rw [hexecute] at hfootprint
    exact files_of_footprint hfootprint other

/-- A date that is sent to a directory is lost.  The clock was read all the same. -/
theorem outcome_of_targetRefused_date :
    let world := worldOf [("x", Reference.folder [])]
    let after : World := { world with clockCalls := 1 }
    builtin.TargetRefused epoch world "DATE >>x" "DATE" [] ⟨"x", true⟩ after ∧
      (builtin.runLine "DATE >>x").outcome epoch world = (.error (.accessDenied "x"), after) ∧
      (∃ output, (builtin.execute "DATE" []).outcome epoch world = (.ok output, after)) ∧
      after.files = world.files := by
  intro world after
  have hrefused : builtin.TargetRefused epoch world "DATE >>x" "DATE" [] ⟨"x", true⟩ after :=
    ⟨rfl, ⟨.text "The current date is: Thu 01/01/1970", rfl⟩, Or.inr ⟨.empty, rfl⟩⟩
  obtain ⟨hfailed, hcommand, hfiles⟩ := outcome_of_targetRefused hrefused
  exact ⟨hrefused, hfailed, hcommand, hfiles (by decide)⟩

end Registry

end DriveShell
