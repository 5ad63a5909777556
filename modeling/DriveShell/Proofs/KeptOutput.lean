import DriveShell.Proofs.CheckedWrites
import DriveShell.Proofs.Redirection

/-!
# Output that is kept

A command line that sends its output into a file and is reported as successful should have
left that file behind.  If the line ran a command, it has: its redirection was carried out as
the last thing, so the target is a child of the directory in which the line ended, it is a
file, and it is read under its name (`Redirect.holds_of_apply`).

A line can also consist of a redirection alone.  When the operator and its target are taken
out no word is left, and a line without words succeeds before its redirection is looked at.
Then nothing is written.  So a successful line leaves its target behind exactly if it has a
word besides, or if the file was there before (`target_held_iff`).
-/

namespace DriveShell

namespace FileSystem

variable {fs after : FileSystem} {target : Name} {content : Text}

/-- A child of the current directory is a file, and it is read under its name. -/
def Holds (fs : FileSystem) (name : Name) : Prop :=
  ∃ content, fs.here.get? name = some (.file content) ∧ fs.read name = .ok content

theorem SafelyWritten.holds (h : fs.SafelyWritten target content after) : after.Holds target :=
  ⟨content, by rw [h.replaced, Directory.get?_insert_self], h.readBack⟩

end FileSystem

/-- A redirection that is carried out leaves its target behind. -/
theorem Redirect.holds_of_apply {redirect : Redirect} {output : Text} {fs after : FileSystem}
    (standing : fs.Standing) (h : redirect.apply output fs = .ok after) :
    after.Holds redirect.target := by
  obtain ⟨hreserved, hdirectory, rfl⟩ := apply_eq_ok.1 h
  exact (standing.safelyWritten hreserved hdirectory _).holds

namespace Registry

variable {scene : Scene} {world after : World} {line : Text} {words : List Text}
  {redirect : Redirect}

/-- A course of a line with a redirection that ends in a success leaves the target behind if
there is a word besides, and otherwise leaves the world as it is. -/
theorem Course.holds_iff {result : Except Failure Output}
    (h : Course builtin scene world line result after) (standing : world.files.Standing)
    (hparts : parts line = .ok (words, some redirect)) (ok : result.isOk = true) :
    after.files.Holds redirect.target ↔ words ≠ [] ∨ world.files.Holds redirect.target := by
  cases h with
  | unreadable _ => cases ok
  | failed _ _ => cases ok
  | refused _ _ _ => cases ok
  | shown hshown _ =>
    rw [hparts] at hshown
    cases hshown
  | blank hblank =>
    rw [hparts] at hblank
    cases hblank
    exact ⟨Or.inr, fun h => h.resolve_left fun nonempty => nonempty rfl⟩
  | @sent verb arguments _ _ middle _ hsent hexecute happly =>
    rw [hparts] at hsent
    cases hsent
    have hmiddle : middle.files.Standing := by
      have hstands := standing_execute standing verb arguments scene
      rwa [hexecute] at hstands
    exact iff_of_true (Redirect.holds_of_apply hmiddle happly) (Or.inl (List.cons_ne_nil _ _))

/-- A line can succeed without leaving its target behind: `> notes` does nothing. -/
theorem lone_redirection_writes_nothing :
    ¬∀ (scene : Scene) (world : World) (line : Text) (words : List Text) (redirect : Redirect),
      world.files.Reachable → parts line = .ok (words, some redirect) →
        ((builtin.runLine line).outcome scene world).1.isOk = true →
          ((builtin.runLine line).outcome scene world).2.files.Holds redirect.target := by
  intro h
  have hstart : FileSystem.start Reference.drives {} = .ok _ := rfl
  obtain ⟨content, hget, -⟩ :=
    h epoch { files := _ } "> notes" [] ⟨"notes", false⟩ (.opened hstart) rfl rfl
  cases hget

/-- In every reachable file system, a line with a redirection that is reported as successful
leaves its target behind, as a file in the directory in which it ends, exactly if the line has a
word besides the operator and the target or the target was such a file before. -/
theorem target_held_iff (reachable : world.files.Reachable)
    (hparts : parts line = .ok (words, some redirect))
    (ok : ((builtin.runLine line).outcome scene world).1.isOk = true) :
    ((builtin.runLine line).outcome scene world).2.files.Holds redirect.target ↔
      words ≠ [] ∨ world.files.Holds redirect.target :=
  (runLine_course builtin scene world line).holds_iff reachable.standing hparts ok

/-- The operator stands first, its target is glued to it, and the command moves elsewhere. -/
theorem target_held_iff_glued :
    ∃ opened, FileSystem.start Reference.drives {} = .ok opened ∧
      let world : World := { files := opened }
      let after := ((builtin.runLine ">>notes cd ..").outcome epoch world).2
      parts ">>notes cd .." = .ok (["cd".toList, "..".toList], some ⟨"notes", true⟩) ∧
        ((builtin.runLine ">>notes cd ..").outcome epoch world).1.isOk = true ∧
        after.files.cwd = "C:\\Users".toList ∧ after.files.Holds "notes" := by
  have hstart : FileSystem.start Reference.drives {} = .ok _ := rfl
  have hparts : parts ">>notes cd .." =
      .ok (["cd".toList, "..".toList], some ⟨"notes", true⟩) := rfl
  refine ⟨_, hstart, hparts, rfl, rfl, ?_⟩
  exact (target_held_iff (.opened hstart) hparts rfl).2 (Or.inl (List.cons_ne_nil _ _))

end Registry

end DriveShell
