import DriveShell.Proofs.Leaving
import DriveShell.Proofs.Observations

/-!
# The reach of a command line

A command line makes at most two changes.  Its command makes the first, and its redirection
writes into what the command leaves.  A `Passage` lists the ways through: nothing happens, the
command leaves its footprint, or a file is written behind it.  From there three limits are read
off (`reach_of_runLine`).

* Only `cd` moves, and it moves where its arguments lead from the old current directory.  A `/d`
  in front of them is dropped (`FileCommands.PathWords`).
* What is changed lies below the directory in which the line ends.  If the command moves, then
  it changes nothing else and only the redirection can write, which it does in the new
  directory.  If it does not move, both changes are made in the same directory.
* Without a redirection the tree is changed by four verbs only.
-/

namespace DriveShell

namespace Path

/-- Whether a path goes on from another one. -/
def Below (top path : Text) : Prop := ∃ rest, path = child top rest

theorem below_of_child {top name path : Text} (h : AtOrBelow (child top name) path) :
    Below top path := by
  rcases h with rfl | ⟨rest, rfl⟩
  · exact ⟨name, rfl⟩
  · exact ⟨child name rest, child_assoc top name rest⟩

end Path

/-! ## Moves are seen below the current directory -/

namespace FileSystem

variable {fs after : FileSystem} {path : Text}

theorem Standing.observe_updateHere (h : fs.Standing) {name : Name}
    {change : Directory → Directory}
    (keep : ∀ c other, name ≠ other → (change c).get? other = c.get? other)
    (canonical : Path.canonical path = path) (outside : ¬Path.Below fs.cwd path) :
    (fs.updateHere change).observe path = fs.observe path := by
  refine (h.sameOutside_updateHere keep).observations path canonical ?_
  intro hbelow
  exact outside (Path.below_of_child hbelow)

/-- At every canonical path that is not below the directory in which a move ends, the same is
seen as before. -/
theorem Move.observe (standing : fs.Standing) (move : fs.Move after)
    (canonical : Path.canonical path = path) (outside : ¬Path.Below after.cwd path) :
    after.observe path = fs.observe path := by
  cases move with
  | enter henter =>
    obtain ⟨-, rfl⟩ := enter_eq_ok.1 henter
    rfl
  | make hmake =>
    obtain ⟨-, -, rfl⟩ := makeDirectory_eq_ok.1 hmake
    exact standing.observe_updateHere (fun c _ hother => c.get?_insert_of_ne hother _) canonical
      outside
  | remove hremove =>
    obtain ⟨-, -, rfl⟩ := remove_eq_ok.1 hremove
    exact standing.observe_updateHere (fun c _ hother => c.get?_erase_of_ne hother) canonical
      outside
  | write _ _ =>
    exact standing.observe_updateHere (fun c _ hother => c.get?_insert_of_ne hother _) canonical
      outside

end FileSystem

/-! ## The words of a path -/

namespace FileCommands

/-- The words that `cd` takes its path from.  A first argument that is `/d`, in either case of its
letter, is dropped, and no other argument is. -/
inductive PathWords : List Text → List Text → Prop
  /-- The switch is dropped. -/
  | dropped {switch : Text} {words : List Text} :
    switch.map Char.toLower = "/d" → PathWords (switch :: words) words
  /-- There is no switch in front. -/
  | kept {arguments : List Text} :
    (∀ first ∈ arguments.head?, first.map Char.toLower ≠ "/d") → PathWords arguments arguments

theorem pathWords_withoutDriveSwitch (arguments : List Text) :
    PathWords arguments (withoutDriveSwitch arguments) := by
  cases arguments with
  | nil => exact .kept fun first hfirst => absurd hfirst (Option.not_mem_none first)
  | cons first words =>
    by_cases hswitch : first.map Char.toLower = "/d"
    · have hdropped : withoutDriveSwitch (first :: words) = words :=
        if_pos (decide_eq_true hswitch)
      rw [hdropped]
      exact .dropped hswitch
    · have hkept : withoutDriveSwitch (first :: words) = first :: words :=
        if_neg fun hsame => hswitch (of_decide_eq_true hsame)
      rw [hkept]
      refine .kept fun other hother => ?_
      rwa [← Option.mem_some.1 hother]

end FileCommands

/-! ## Limits of a footprint -/

/-- The verbs of the commands that change the tree. -/
def Registry.treeVerbs : List Text :=
  [FileCommands.mkdir.name, FileCommands.rmdir.name, FileCommands.del.name,
    FileCommands.copy.name]

namespace Footprint

variable {verb : Option Text} {arguments : List Text} {fs after : FileSystem}
  {result : Except Failure Output}

/-- A footprint that moves is that of a `cd` that succeeds. -/
theorem moved (h : Footprint verb arguments fs result after) (other : after.cwd ≠ fs.cwd) :
    verb = some "cd" ∧ result.isOk = true ∧
      ∃ words, FileCommands.PathWords arguments words ∧
        after.cwd = fs.resolve (Text.join [' '] words) := by
  cases h with
  | still _ => exact absurd rfl other
  | entered hverb _ henter =>
    obtain ⟨-, rfl⟩ := FileSystem.enter_eq_ok.1 henter
    exact ⟨hverb, rfl, _, FileCommands.pathWords_withoutDriveSwitch arguments, rfl⟩
  | made _ _ hmake =>
    obtain ⟨-, -, rfl⟩ := FileSystem.makeDirectory_eq_ok.1 hmake
    exact absurd rfl other
  | removed _ _ hremove =>
    obtain ⟨-, -, rfl⟩ := FileSystem.remove_eq_ok.1 hremove
    exact absurd rfl other
  | copied _ _ hcopy =>
    obtain ⟨-, -, content, -, rfl⟩ := FileSystem.copyTo_eq_ok.1 hcopy
    exact absurd rfl other

theorem drives (h : Footprint verb arguments fs result after)
    (other : ∀ name ∈ Registry.treeVerbs, verb ≠ some name) : after.drives = fs.drives := by
  cases h with
  | still _ => rfl
  | entered _ _ henter =>
    obtain ⟨-, rfl⟩ := FileSystem.enter_eq_ok.1 henter
    rfl
  | made hverb _ _ => exact absurd hverb (other _ (by simp [Registry.treeVerbs]))
  | removed hverb _ _ =>
    rcases hverb with hverb | hverb
    · exact absurd hverb (other _ (by simp [Registry.treeVerbs]))
    · exact absurd hverb (other _ (by simp [Registry.treeVerbs]))
  | copied hverb _ _ => exact absurd hverb (other _ (by simp [Registry.treeVerbs]))

theorem standing (h : Footprint verb arguments fs result after) (standing : fs.Standing) :
    after.Standing :=
  (FileSystem.moves_of_footprint h).keeps standing fun _ _ hfs move => hfs.move move

theorem observe (h : Footprint verb arguments fs result after) (standing : fs.Standing)
    {path : Text} (canonical : Path.canonical path = path)
    (outside : ¬Path.Below after.cwd path) : after.observe path = fs.observe path := by
  rcases FileSystem.eq_or_move_of_footprint h with rfl | hmove
  · rfl
  · exact hmove.observe standing canonical outside

end Footprint

namespace Registry

variable {scene : Scene} {world : World} {line : Text} {after : FileSystem}

/-! ## From one file system to another -/

/-- The redirection of a command line that can be read. -/
def redirect? (line : Text) : Option Redirect :=
  match parts line with
  | .ok (_, redirect) => redirect
  | .error _ => none

/-- How a command line goes from the file system of a world to another one. -/
inductive Passage (scene : Scene) (world : World) (line : Text) : FileSystem → Prop
  /-- No command is run. -/
  | idle : Passage scene world line world.files
  /-- The command leaves its footprint. -/
  | command {verb : Text} {arguments : List Text} {redirect : Option Redirect}
      {result : Except Failure Output} {middle : FileSystem} :
    parts line = .ok (verb :: arguments, redirect) →
    ((builtin.execute verb arguments).outcome scene world).1 = result →
    Footprint (builtin.canonicalVerb verb) arguments world.files result middle →
    Passage scene world line middle
  /-- The output of the command is written behind it. -/
  | redirected {verb : Text} {arguments : List Text} {redirect : Redirect}
      {result : Except Failure Output} {middle : FileSystem} {output : Text} {after : FileSystem} :
    parts line = .ok (verb :: arguments, some redirect) →
    ((builtin.execute verb arguments).outcome scene world).1 = result →
    Footprint (builtin.canonicalVerb verb) arguments world.files result middle →
    redirect.apply output middle = .ok after →
    Passage scene world line after

/-- Every course of a command line is a passage. -/
theorem Course.passage {result : Except Failure Output} {after : World}
    (h : Course builtin scene world line result after) : Passage scene world line after.files := by
  cases h with
  | unreadable _ => exact .idle
  | blank _ => exact .idle
  | failed hparts hexecute =>
    exact .command hparts (by rw [hexecute]) (footprint_of_outcome hexecute)
  | shown hparts hexecute =>
    exact .command hparts (by rw [hexecute]) (footprint_of_outcome hexecute)
  | sent hparts hexecute happly =>
    exact .redirected hparts (by rw [hexecute]) (footprint_of_outcome hexecute) happly
  | refused hparts hexecute _ =>
    exact .command hparts (by rw [hexecute]) (footprint_of_outcome hexecute)

theorem runLine_passage (scene : Scene) (world : World) (line : Text) :
    Passage scene world line ((builtin.runLine line).outcome scene world).2.files :=
  (runLine_course builtin scene world line).passage

theorem cwd_of_apply {redirect : Redirect} {output : Text} {fs : FileSystem}
    (h : redirect.apply output fs = .ok after) : after.cwd = fs.cwd := by
  obtain ⟨-, -, rfl⟩ := Redirect.apply_eq_ok.1 h
  rfl

namespace Passage

/-- The line ran a `cd` that succeeded and led to the directory in which the line ended. -/
def Entered (scene : Scene) (world : World) (line : Text) (cwd : Text) : Prop :=
  ∃ verb arguments redirect, parts line = .ok (verb :: arguments, redirect) ∧
    builtin.canonicalVerb verb = some "cd" ∧
    ((builtin.execute verb arguments).outcome scene world).1.isOk = true ∧
    ∃ words, FileCommands.PathWords arguments words ∧
      cwd = world.files.resolve (Text.join [' '] words)

theorem entered (h : Passage scene world line after) (moved : after.cwd ≠ world.files.cwd) :
    Entered scene world line after.cwd := by
  cases h with
  | idle => exact absurd rfl moved
  | command hparts hresult hfootprint =>
    obtain ⟨hverb, hok, hcwd⟩ := hfootprint.moved moved
    exact ⟨_, _, _, hparts, hverb, by rw [hresult, hok], hcwd⟩
  | redirected hparts hresult hfootprint happly =>
    rw [cwd_of_apply happly] at moved ⊢
    obtain ⟨hverb, hok, hcwd⟩ := hfootprint.moved moved
    exact ⟨_, _, _, hparts, hverb, by rw [hresult, hok], hcwd⟩

theorem observe (h : Passage scene world line after) (standing : world.files.Standing) {path : Text}
    (canonical : Path.canonical path = path) (outside : ¬Path.Below after.cwd path) :
    after.observe path = world.files.observe path := by
  cases h with
  | idle => rfl
  | command _ _ hfootprint => exact hfootprint.observe standing canonical outside
  | @redirected _ _ _ _ middle _ _ _ _ hfootprint happly =>
    have hmiddle : ¬Path.Below middle.cwd path := by rwa [← cwd_of_apply happly]
    calc
      after.observe path = middle.observe path :=
        (FileSystem.move_of_apply happly).observe (hfootprint.standing standing) canonical outside
      _ = world.files.observe path := hfootprint.observe standing canonical hmiddle

theorem drives (h : Passage scene world line after) (plain : redirect? line = none)
    (other : ∀ name ∈ treeVerbs, (verb? line).bind builtin.canonicalVerb ≠ some name) :
    after.drives = world.files.drives := by
  cases h with
  | idle => rfl
  | @command verb _ _ _ _ hparts _ hfootprint =>
    have hverb : verb? line = some verb := by rw [verb?, hparts]
    rw [hverb] at other
    exact hfootprint.drives other
  | redirected hparts _ _ _ =>
    rw [redirect?, hparts] at plain
    cases plain

end Passage

/-- What a command line can reach, in every reachable file system.  If the current directory
is another one afterwards, then the line ran a `cd` that succeeded, and the new path is what
the arguments name, seen from the old one.  At every canonical path that is not below the
directory in which the line ends, the same is seen as before: nothing, a directory, or a file
with that content.  If there is no redirection and the verb is not listed under one of the four
that change the tree, then the tree is the same. -/
theorem reach_of_runLine (reachable : world.files.Reachable) (scene : Scene) (line : Text) :
    let after := ((builtin.runLine line).outcome scene world).2.files
    (after.cwd ≠ world.files.cwd → Passage.Entered scene world line after.cwd) ∧
      (∀ path, Path.canonical path = path → ¬Path.Below after.cwd path →
        after.observe path = world.files.observe path) ∧
      (redirect? line = none →
        (∀ name ∈ treeVerbs, (verb? line).bind builtin.canonicalVerb ≠ some name) →
          after.drives = world.files.drives) := by
  intro after
  have passage : Passage scene world line after := runLine_passage scene world line
  refine ⟨passage.entered, ?_, passage.drives⟩
  intro path canonical outside
  exact passage.observe reachable.standing canonical outside

/-- A `cd` to the directory above, with its output sent into a file there.  The system directory
is seen as before.  Without the redirection the whole tree is. -/
theorem reach_of_runLine_above :
    ∃ opened, FileSystem.start Reference.drives {} = .ok opened ∧
      let world : World := { files := opened }
      let sent := ((builtin.runLine "chdir /D .. > notes").outcome epoch world).2.files
      let bare := ((builtin.runLine "chdir /D ..").outcome epoch world).2.files
      (sent.cwd = "C:\\Users".toList ∧ world.files.cwd = "C:\\Users\\Administrator".toList ∧
        Passage.Entered epoch world "chdir /D .. > notes" sent.cwd) ∧
      (sent.observe "C:\\Users\\notes" = .file [] ∧
        sent.observe "C:\\Windows" = world.files.observe "C:\\Windows") ∧
      bare.cwd = "C:\\Users".toList ∧ bare.drives = world.files.drives := by
  have hstart : FileSystem.start Reference.drives {} = .ok _ := rfl
  refine ⟨_, hstart, ?_⟩
  intro world sent bare
  have hreachable : world.files.Reachable := .opened hstart
  obtain ⟨hentered, hseen, -⟩ := reach_of_runLine hreachable epoch "chdir /D .. > notes"
  obtain ⟨-, -, htree⟩ := reach_of_runLine hreachable epoch "chdir /D .."
  have hmoved : sent.cwd ≠ world.files.cwd := by decide
  have hapart : ¬Path.Below sent.cwd "C:\\Windows" := by
    rintro ⟨rest, hrest⟩
    have htake : "C:\\W".toList = "C:\\U".toList := congrArg (List.take 4) hrest
    exact absurd htake (by decide)
  exact ⟨⟨rfl, rfl, hentered hmoved⟩, ⟨rfl, hseen "C:\\Windows" (by decide) hapart⟩, rfl,
    htree rfl (by decide)⟩

end Registry

end DriveShell
