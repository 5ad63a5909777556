import DriveShell.Proofs.Moves
import DriveShell.Proofs.Observations

/-!
# Checked writes

Writing a file checks nothing, and it takes a name.  A redirection and a copy look at their
target first, but they look it up as a path.  If the two were different nodes, then a whole
directory could be lost.

They are the same node.  A target that passes the check is a valid name, since the empty
text, `.` and `..` lead to a directory, and a valid name leads to the child of that name.
So what has been looked up is what is written over, it is a file or nothing, and every
directory is still there afterwards (`SafelyWritten`).
-/

namespace DriveShell

namespace FileSystem

variable {fs after : FileSystem} {target : Name} {content : Text}

/-- A content has been written under a target that was looked up before. -/
structure SafelyWritten (fs : FileSystem) (target : Name) (content : Text) (after : FileSystem) :
    Prop where
  /-- The target is a name that a child can have. -/
  valid : Path.isValidName target = true
  /-- What was looked up is the child of that name. -/
  inspected : fs.lookup (fs.resolve target) = fs.here.get? target
  /-- It is not there, or it is a file. -/
  replaceable : fs.here.get? target = none ∨ ∃ old, fs.here.get? target = some (.file old)
  /-- The content is written under the name and nothing else is done. -/
  written : after = fs.writeFile target content
  /-- The child of that name is replaced. -/
  replaced : after.here = fs.here.insert target (.file content)
  /-- What was written is read. -/
  readBack : after.read target = .ok content
  /-- No directory is lost. -/
  directories : ∀ path, fs.observe path = .directory → after.observe path = .directory

/-- A directory is seen where a walk of at least one step leads to one. -/
theorem observe_eq_directory_iff {path : Text} : fs.observe path = .directory ↔
    Path.segments path ≠ [] ∧ (fs.drives.at? (Path.segments path)).isSome := by
  by_cases hnil : Path.segments path = []
  · rw [observe, lookup, hnil]
    refine iff_of_false (fun hseen => ?_) fun h => h.1 rfl
    cases hseen
  · rw [observe, lookup, ← Directory.children?_find? _ hnil]
    cases fs.drives.find? (Path.segments path) with
    | none => simp [Observation.of]
    | some node =>
      cases node with
      | file content => simp [Observation.of, Node.children?]
      | directory children => simp [Observation.of, Node.children?, hnil]

/-- A file that is written where no directory stands ends no walk. -/
theorem Standing.observe_writeFile (h : fs.Standing)
    (noDirectory : (fs.here.get? target).any Node.isDirectory = false) {path : Text}
    (directory : fs.observe path = .directory) :
    (fs.writeFile target content).observe path = .directory := by
  rw [observe_eq_directory_iff] at directory ⊢
  refine ⟨directory.1, h.isSome_at?_updateHere directory.2 fun rest _ hrest => ?_⟩
  exact Directory.isSome_at?_insert hrest (Directory.sub?_eq_none noDirectory) _

/-- A write is safe if its target has no reserved character and does not lead to a directory. -/
theorem Standing.safelyWritten (h : fs.Standing) (free : Path.hasReserved target = false)
    (noDirectory : (fs.find? target).any Node.isDirectory = false) (content : Text) :
    fs.SafelyWritten target content (fs.writeFile target content) := by
  obtain ⟨valid, hchild⟩ := h.target_of_not_isDirectory free noDirectory
  have hhere : (fs.writeFile target content).here = fs.here.insert target (.file content) :=
    h.here_updateHere _
  refine ⟨valid, h.find?_valid valid, ?_, rfl, hhere, ?_, fun path => h.observe_writeFile hchild⟩
  · cases hget : fs.here.get? target with
    | none => exact Or.inl rfl
    | some node =>
      cases node with
      | file old => exact Or.inr ⟨old, rfl⟩
      | directory children =>
        rw [hget] at hchild
        cases hchild
  · have standing : (fs.writeFile target content).Standing := h.updateHere _
    rw [read_eq_ok, standing.find?_valid valid, hhere, Directory.get?_insert_self]

/-- In every reachable file system and for every target: a redirection that succeeds and a
copy that succeeds have written safely.  The copy writes what it read from its source.  The
redirection writes its output, and behind the content of the child of that name and a line
break if it appends and that content is not empty. -/
theorem checked_writes_are_safe (reachable : fs.Reachable) (target : Text) :
    (∀ append output after, Redirect.apply ⟨target, append⟩ output fs = .ok after →
      fs.SafelyWritten target
        (match fs.here.get? target with
          | some (.file old) => if append ∧ old ≠ [] then old ++ '\n' :: output else output
          | _ => output) after) ∧
    ∀ source after, FileCommands.copyTo source target fs = .ok after →
      ∃ content, fs.read source = .ok content ∧ fs.SafelyWritten target content after := by
  have standing : fs.Standing := reachable.standing
  refine ⟨fun append output after happly => ?_, fun source after hcopy => ?_⟩
  · obtain ⟨hreserved, hdirectory, rfl⟩ := Redirect.apply_eq_ok.1 happly
    have hsafe := standing.safelyWritten hreserved hdirectory
    rw [FileSystem.find?, (hsafe output).inspected]
    exact hsafe _
  · obtain ⟨hreserved, hdirectory, content, hsource, rfl⟩ := copyTo_eq_ok.1 hcopy
    exact ⟨content, read_eq_ok.2 hsource, standing.safelyWritten hreserved hdirectory content⟩

/-- Notes that are appended to and then copied over, beside directories. -/
theorem checked_writes_are_safe_notes :
    ∃ opened, start Reference.drives {} = .ok opened ∧
      let fs := opened.attempts [.write "notes" "one"]
      (∃ after, Redirect.apply ⟨"notes", true⟩ "two" fs = .ok after ∧
        fs.SafelyWritten "notes" "one\ntwo" after) ∧
      ∃ after, FileCommands.copyTo "Documents\\report.txt" "notes" fs = .ok after ∧
        ∃ content, fs.read "Documents\\report.txt" = .ok content ∧
          fs.SafelyWritten "notes" content after := by
  have hstart : start Reference.drives {} = .ok _ := rfl
  refine ⟨_, hstart, ?_⟩
  have hreachable := (Reachable.opened hstart).attempts [.write "notes" "one"]
  obtain ⟨hredirect, hcopy⟩ := checked_writes_are_safe hreachable "notes"
  exact ⟨⟨_, rfl, hredirect true "two" _ rfl⟩, ⟨_, rfl, hcopy _ _ rfl⟩⟩

end FileSystem

end DriveShell
