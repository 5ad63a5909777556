import Mathlib.Logic.Relation
import DriveShell.Proofs.Course
import DriveShell.Proofs.Standing

/-!
# Moves of command lines

A `Move` is a change that a built-in command or a redirection makes.  It differs from a
call of the file system in one point: a file is only written under a name without
reserved characters that does not lead to a directory.  A command line makes at most
two moves, one by its command and one by its redirection (`runLine_moves`).

So a property that every move keeps in a standing file system holds after every run of
command lines (`runLines_keeps`).
-/

namespace DriveShell

namespace FileSystem

/-- A change that a built-in command or a redirection makes. -/
inductive Move (fs : FileSystem) : FileSystem → Prop
  | enter {input : Text} {after : FileSystem} : fs.enter input = .ok after → Move fs after
  | make {name : Name} {after : FileSystem} : fs.makeDirectory name = .ok after → Move fs after
  | remove {name : Name} {recursive : Bool} {after : FileSystem} :
    fs.remove name recursive = .ok after → Move fs after
  /-- What is written over is no directory. -/
  | write {name : Name} {content : Text} :
    Path.hasReserved name = false →
    (fs.find? name).any Node.isDirectory = false →
    Move fs (fs.writeFile name content)

/-- Any number of moves. -/
abbrev Moves : FileSystem → FileSystem → Prop := Relation.ReflTransGen Move

variable {fs after : FileSystem}

theorem Move.perform (h : fs.Move after) : ∃ change, fs.perform change = .ok after := by
  cases h with
  | @enter input _ hafter => exact ⟨.enter input, hafter⟩
  | @make name _ hafter => exact ⟨.make name, hafter⟩
  | @remove name recursive _ hafter => exact ⟨.remove name recursive, hafter⟩
  | @write name content _ _ => exact ⟨.write name content, rfl⟩

theorem Standing.move (h : fs.Standing) (move : fs.Move after) : after.Standing := by
  obtain ⟨change, hchange⟩ := move.perform
  exact h.perform hchange

theorem Reachable.move (h : fs.Reachable) (move : fs.Move after) : after.Reachable := by
  obtain ⟨change, hchange⟩ := move.perform
  exact h.performed hchange

theorem Moves.keeps {motive : FileSystem → Prop} (moves : Moves fs after) (h : motive fs)
    (keep : ∀ fs after, motive fs → fs.Move after → motive after) : motive after := by
  induction moves with
  | refl => exact h
  | tail _ move ih => exact keep _ _ ih move

/-! ## Commands and redirections -/

theorem copyTo_eq_ok {source destination : Text} :
    FileCommands.copyTo source destination fs = .ok after ↔
      Path.hasReserved destination = false ∧
      (fs.find? destination).any Node.isDirectory = false ∧
      ∃ content, fs.find? source = some (.file content) ∧
        after = fs.writeFile destination content := by
  rw [FileCommands.copyTo]
  split
  next hreserved => simp [hreserved]
  next hreserved =>
    split
    next hdirectory => simp [hdirectory]
    next hdirectory =>
      rw [Bool.not_eq_true] at hreserved hdirectory
      simp [hreserved, hdirectory, copyFile_eq_ok]

/-- A command does nothing or makes one move. -/
theorem eq_or_move_of_footprint {verb : Option Text} {arguments : List Text}
    {result : Except Failure Output} (h : Footprint verb arguments fs result after) :
    after = fs ∨ fs.Move after := by
  cases h with
  | still _ => exact Or.inl rfl
  | entered _ _ henter => exact Or.inr (.enter henter)
  | made _ _ hmake => exact Or.inr (.make hmake)
  | removed _ _ hremove => exact Or.inr (.remove hremove)
  | copied _ _ hcopy =>
    obtain ⟨hreserved, hdirectory, content, -, rfl⟩ := copyTo_eq_ok.1 hcopy
    exact Or.inr (.write hreserved hdirectory)

theorem moves_of_footprint {verb : Option Text} {arguments : List Text}
    {result : Except Failure Output} (h : Footprint verb arguments fs result after) :
    Moves fs after := by
  rcases eq_or_move_of_footprint h with rfl | hmove
  · exact .refl
  · exact .single hmove

theorem move_of_apply {redirect : Redirect} {output : Text}
    (h : redirect.apply output fs = .ok after) : fs.Move after := by
  obtain ⟨hreserved, hdirectory, rfl⟩ := Redirect.apply_eq_ok.1 h
  exact .write hreserved hdirectory

end FileSystem

/-! ## Command lines -/

namespace Registry

open FileSystem

theorem execute_moves (verb : Text) (arguments : List Text) (scene : Scene) (world : World) :
    Moves world.files ((builtin.execute verb arguments).outcome scene world).2.files :=
  moves_of_footprint (execute_footprint verb arguments scene world)

theorem Course.moves {scene : Scene} {world after : World} {line : Text}
    {result : Except Failure Output} (h : Course builtin scene world line result after) :
    Moves world.files after.files := by
  have hexecute := fun verb arguments => execute_moves verb arguments scene world
  cases h with
  | unreadable _ => exact .refl
  | blank _ => exact .refl
  | @failed verb arguments _ _ _ _ hrun =>
    have hmoves := hexecute verb arguments
    rwa [hrun] at hmoves
  | @shown verb arguments _ _ _ hrun =>
    have hmoves := hexecute verb arguments
    rwa [hrun] at hmoves
  | @sent verb arguments _ _ _ _ _ hrun happly =>
    have hmoves := hexecute verb arguments
    rw [hrun] at hmoves
    exact hmoves.tail (move_of_apply happly)
  | @refused verb arguments _ _ _ _ _ hrun _ =>
    have hmoves := hexecute verb arguments
    rwa [hrun] at hmoves

/-- What a command line does to the file system is some moves, whether it succeeds or fails. -/
theorem runLine_moves (line : Text) (scene : Scene) (world : World) :
    Moves world.files ((builtin.runLine line).outcome scene world).2.files :=
  (runLine_course builtin scene world line).moves

/-- The world after some command lines.  A failed line does not stop the others. -/
def runLines (registry : Registry) (scene : Scene) (world : World) (lines : List Text) : World :=
  lines.foldl (fun world line => ((registry.runLine line).outcome scene world).2) world

/-- What every move of a standing file system keeps holds after every run of command lines. -/
theorem runLines_keeps {motive : FileSystem → Prop} {world : World}
    (standing : world.files.Standing) (h : motive world.files)
    (keep : ∀ fs after, fs.Standing → motive fs → fs.Move after → motive after)
    (scene : Scene) (lines : List Text) :
    (builtin.runLines scene world lines).files.Standing ∧
      motive (builtin.runLines scene world lines).files := by
  induction lines generalizing world with
  | nil => exact ⟨standing, h⟩
  | cons line lines ih =>
    -- `keep` asks for a standing file system, so the moves of the line carry both along.
    have hline : ((builtin.runLine line).outcome scene world).2.files.Standing ∧
        motive ((builtin.runLine line).outcome scene world).2.files :=
      (runLine_moves line scene world).keeps (motive := fun fs => fs.Standing ∧ motive fs)
        ⟨standing, h⟩ fun fs after hfs move => ⟨hfs.1.move move, keep fs after hfs.1 hfs.2 move⟩
    exact ih hline.1 hline.2

/-- Command lines lead nowhere that the calls of the file system do not. -/
theorem reachable_runLines {world : World} (h : world.files.Reachable) (scene : Scene)
    (lines : List Text) : (builtin.runLines scene world lines).files.Reachable :=
  (runLines_keeps h.standing h (fun _ _ _ hfs move => hfs.move move) scene lines).2

end Registry

end DriveShell
