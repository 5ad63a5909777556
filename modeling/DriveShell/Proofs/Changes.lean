import DriveShell.FileSystem.Basic

/-!
# Changes of a file system

Five calls change a file system.  Each is given here by the condition on which it
succeeds and the file system that it then leaves, so that later proofs need not open
the call itself.

`Change` lists the calls with their arguments.  `perform` makes one, `attempt` makes
one and stays where it is when the call is refused, and `attempts` makes any number
of them.  A file system is `Reachable` if some opening and some attempts lead to it.
-/

namespace DriveShell

namespace FileSystem

variable {fs after : FileSystem}

/-! ## When a call succeeds -/

theorem start_eq_ok {drives : Directory} {config : Config} :
    start drives config = .ok fs ↔
      (∃ children, drives.find? (Path.segments (Path.canonical config.home)) =
        some (.directory children)) ∧
      fs = {
        drives := drives
        cwd := Path.canonical config.home
        volumeSerial := config.volumeSerial
        freeBytes := config.freeBytes
        primaryDrive := config.primaryDrive
        protectedNames := config.protectedNames } := by
  rw [start]
  split
  next children h =>
    rw [Except.ok.injEq, eq_comm]
    exact ⟨fun hfs => ⟨⟨children, h⟩, hfs⟩, fun hfs => hfs.2⟩
  next content h => simp [h]
  next h => simp [h]

theorem enter_eq_ok {input : Text} :
    fs.enter input = .ok after ↔
      (∃ children, fs.find? input = some (.directory children)) ∧
      after = { fs with cwd := fs.resolve input } := by
  rw [enter, find?]
  split
  next children h =>
    rw [Except.ok.injEq, eq_comm]
    exact ⟨fun hfs => ⟨⟨children, h⟩, hfs⟩, fun hfs => hfs.2⟩
  next content h => simp [h]
  next h => simp [h]

theorem makeDirectory_eq_ok {name : Name} :
    fs.makeDirectory name = .ok after ↔
      Path.isValidName name = true ∧ fs.here.get? name = none ∧
      after = fs.updateHere (·.insert name (.directory .empty)) := by
  rw [makeDirectory, Directory.contains]
  cases hvalid : Path.isValidName name with
  | false => simp
  | true =>
    cases hget : fs.here.get? name with
    | none => simp [eq_comm]
    | some node => simp

theorem remove_eq_ok {name : Name} {recursive : Bool} :
    fs.remove name recursive = .ok after ↔
      (∃ node, fs.here.get? name = some node ∧
        (node.children?.any (!·.isEmpty) = true → recursive = true)) ∧
      fs.isProtected name = false ∧ after = fs.updateHere (·.erase name) := by
  rw [remove]
  split
  next hget => simp [hget]
  next node hget =>
    split
    next hprotected => simp [hprotected]
    next hprotected =>
      rw [Bool.not_eq_true] at hprotected
      split
      next hpopulated =>
        obtain ⟨hany, hshallow⟩ := Bool.and_eq_true_iff.1 hpopulated
        refine ⟨fun hafter => (nomatch hafter), ?_⟩
        rintro ⟨⟨_, hnode, hgo⟩, -, -⟩
        cases hget.symm.trans hnode
        rw [hgo hany] at hshallow
        cases hshallow
      next hpopulated =>
        rw [Except.ok.injEq, eq_comm]
        refine ⟨fun hafter => ⟨⟨node, hget, fun hany => ?_⟩, hprotected, hafter⟩,
          fun hafter => hafter.2.2⟩
        simpa [hany] using hpopulated

theorem read_eq_ok {input content : Text} :
    fs.read input = .ok content ↔ fs.find? input = some (.file content) := by
  rw [read]
  split
  next c h => simp [h]
  next children h => simp [h]
  next h => simp [h]

theorem copyFile_eq_ok {source : Text} {destination : Name} :
    fs.copyFile source destination = .ok after ↔
      ∃ content, fs.find? source = some (.file content) ∧
        after = fs.writeFile destination content := by
  rw [copyFile]
  cases hread : fs.read source with
  | error failure =>
    have hnone : ∀ content, fs.find? source ≠ some (.file content) := by
      intro content h
      rw [read_eq_ok.2 h] at hread
      cases hread
    simp [Except.map, hnone]
  | ok content =>
    have hfind := read_eq_ok.1 hread
    simp [Except.map, hfind, eq_comm]

/-! ## Sequences of calls -/

/-- A call that changes a file system. -/
inductive Change
  /-- To enter a directory. -/
  | enter (input : Text)
  /-- To make a directory. -/
  | make (name : Name)
  /-- To remove a child. -/
  | remove (name : Name) (recursive : Bool)
  /-- To write a file. -/
  | write (name : Name) (content : Text)
  /-- To copy a file. -/
  | copy (source : Text) (destination : Name)
deriving DecidableEq

/-- The file system after a call, or why it is refused. -/
def perform (fs : FileSystem) : Change → Except Failure FileSystem
  | .enter input => fs.enter input
  | .make name => fs.makeDirectory name
  | .remove name recursive => fs.remove name recursive
  | .write name content => .ok (fs.writeFile name content)
  | .copy source destination => fs.copyFile source destination

/-- The file system after a call that may be refused.  A refused call changes nothing. -/
def attempt (fs : FileSystem) (change : Change) : FileSystem :=
  match fs.perform change with
  | .ok after => after
  | .error _ => fs

/-- The file system after some calls. -/
def attempts (fs : FileSystem) (changes : List Change) : FileSystem := changes.foldl attempt fs

/-- A file system to which an opening and some calls lead. -/
inductive Reachable : FileSystem → Prop
  /-- An opened file system. -/
  | opened {drives : Directory} {config : Config} {fs : FileSystem} :
    start drives config = .ok fs → Reachable fs
  /-- What a call leaves of a reachable one. -/
  | performed {fs after : FileSystem} {change : Change} :
    Reachable fs → fs.perform change = .ok after → Reachable after

theorem Reachable.attempt (h : fs.Reachable) (change : Change) : (fs.attempt change).Reachable := by
  rw [FileSystem.attempt]
  split
  next after hafter => exact h.performed hafter
  next => exact h

theorem Reachable.attempts (h : fs.Reachable) (changes : List Change) :
    (fs.attempts changes).Reachable := by
  induction changes generalizing fs with
  | nil => exact h
  | cons change changes ih => exact ih (h.attempt change)

end FileSystem

end DriveShell
