import DriveShell.Proofs.RelativePaths
import DriveShell.Proofs.SegmentLists

/-!
# Inputs that go up

There are three rules for an input without a drive that does not begin with a backslash.  A lone
`..` names the parent of the current path, `..\` is followed from there, and all else is appended.
The first two cut the text of the current path, and the last one leaves the `..` to the canonical
form.  In a reachable file system the current path is that of a stepwise list, and the parent of
such a path is where `..` leads from it.  So the special rules give what appending would have given
(`Standing.resolve_relative`).

They look at one `..` only.  Since they agree with appending, what is known of one `..` goes over to
any number of them.  `..\..` and so on name the parent of the parent, at a drive the drive itself,
and what comes after them is followed from there (`Standing.resolve_ascent`).
-/

namespace DriveShell

namespace Path

/-! ## Several steps up -/

/-- The input with one `..` and `n` more of them. -/
def ascent (n : Nat) : Text := ofSegments (List.replicate (n + 1) above)

theorem ascent_zero : ascent 0 = above := rfl

theorem ascent_succ (n : Nat) : ascent (n + 1) = child above (ascent n) := by
  rw [ascent, List.replicate_succ, List.replicate_succ, ofSegments, Text.join_cons_cons,
    List.append_assoc]
  rfl

theorem ascent_ne_nil (n : Nat) : ascent n ≠ [] := by
  cases n with
  | zero => exact List.cons_ne_nil _ _
  | succ n =>
    rw [ascent_succ]
    exact List.cons_ne_nil _ _

/-- A relative input stays one when more comes after it, unless that holds a colon. -/
theorem IsRelative.child {input rest : Text} (h : IsRelative input) (nonempty : input ≠ [])
    (plain : ':' ∉ rest) : IsRelative (child input rest) := by
  have hother : ':' ≠ delimiter := by decide
  refine ⟨fun hcolon => ?_, ?_⟩
  · rcases List.mem_append.1 hcolon with hinput | hcolon
    · exact h.1 hinput
    · rcases List.mem_cons.1 hcolon with hdelimiter | hrest
      · exact hother hdelimiter
      · exact plain hrest
  · obtain ⟨c, input, rfl⟩ := List.exists_cons_of_ne_nil nonempty
    exact h.2

theorem isRelative_ascent (n : Nat) : IsRelative (ascent n) := by
  have habove : IsRelative above := by decide
  induction n with
  | zero => exact habove
  | succ n ih =>
    rw [ascent_succ]
    exact habove.child (ascent_ne_nil 0) ih.1

/-- From the path of a stepwise list, each `..` leads to the parent. -/
theorem canonical_child_ascent {segments : List Text} (h : Stepwise segments) (n : Nat) :
    canonical (child (ofSegments segments) (ascent n)) = parent^[n + 1] (ofSegments segments) := by
  induction n generalizing segments with
  | zero =>
    rw [ascent_zero, ← parent_eq_canonical h]
    rfl
  | succ n ih =>
    rw [ascent_succ, ← child_assoc, ← canonical_child_canonical, ← parent_eq_canonical h,
      Function.iterate_succ_apply, parent_ofSegments h]
    exact ih h.upward

end Path

namespace FileSystem

variable {fs : FileSystem}

namespace Standing

theorem canonical_child_ascent (h : fs.Standing) (n : Nat) :
    Path.canonical (Path.child fs.cwd (Path.ascent n)) = Path.parent^[n + 1] fs.cwd := by
  have hascent := Path.canonical_child_ascent h.stepwise n
  rwa [h.rejoined] at hascent

theorem resolve_ascent (h : fs.Standing) (n : Nat) :
    fs.resolve (Path.ascent n) = Path.parent^[n + 1] fs.cwd := by
  rw [h.resolve_relative (Path.isRelative_ascent n), h.canonical_child_ascent]

/-- What comes after some `..` is followed from where they lead. -/
theorem resolve_child_ascent (h : fs.Standing) (n : Nat) {rest : Text} (plain : ':' ∉ rest) :
    fs.resolve (Path.child (Path.ascent n) rest) =
      Path.canonical (Path.child (Path.parent^[n + 1] fs.cwd) rest) := by
  have hrelative := (Path.isRelative_ascent n).child (Path.ascent_ne_nil n) plain
  rw [h.resolve_relative hrelative, ← Path.child_assoc, ← Path.canonical_child_canonical,
    h.canonical_child_ascent]

end Standing

/-- In every reachable file system, an input without a colon that does not begin with a backslash
resolves to the canonical form of the current path with the input appended, whichever rule it falls
under.  In particular `..` resolves to the parent of the current path, any number of `..` to the
parent taken as often, and what comes after them is followed from there.  At a drive they lead
nowhere else. -/
theorem resolve_as_appended (reachable : fs.Reachable) :
    (∀ input, ':' ∉ input → input.head? ≠ some Path.delimiter →
      fs.resolve input = Path.canonical (Path.child fs.cwd input)) ∧
    fs.resolve Path.above = Path.parent fs.cwd ∧
    (∀ n, fs.resolve (Path.ascent n) = Path.parent^[n + 1] fs.cwd ∧
      ∀ rest, ':' ∉ rest → fs.resolve (Path.child (Path.ascent n) rest) =
        Path.canonical (Path.child (Path.parent^[n + 1] fs.cwd) rest)) ∧
    (Path.delimiter ∉ fs.cwd → ∀ n, fs.resolve (Path.ascent n) = fs.cwd) := by
  have standing : fs.Standing := reachable.standing
  refine ⟨fun input hcolon hhead => standing.resolve_relative ⟨hcolon, hhead⟩,
    standing.resolve_ascent 0, fun n => ⟨standing.resolve_ascent n,
      fun rest => standing.resolve_child_ascent n⟩, fun hdrive n => ?_⟩
  rw [standing.resolve_ascent]
  exact Function.iterate_fixed (Path.parent_of_plain hdrive) (n + 1)

/-- Inputs on either side of the special rules, below a drive and at it. -/
theorem resolve_as_appended_reference :
    ∃ opened, start Reference.drives {} = .ok opened ∧
      let root := opened.attempts [.enter "\\"]
      (∀ input ∈ ["..", "..\\", "...", "..\\..", ".\\..\\x", ""].map String.toList,
        opened.resolve input = Path.canonical (Path.child opened.cwd input) ∧
        root.resolve input = Path.canonical (Path.child root.cwd input)) ∧
      opened.resolve Path.above = Path.parent opened.cwd ∧
      Path.delimiter ∉ root.cwd ∧ root.resolve (Path.ascent 3) = root.cwd ∧
      root.resolve (Path.child (Path.ascent 1) "Windows\\..\\x") =
        Path.canonical (Path.child (Path.parent^[2] root.cwd) "Windows\\..\\x") := by
  have hstart : start Reference.drives {} = .ok _ := rfl
  refine ⟨_, hstart, ?_⟩
  intro root
  have hroot : root.Reachable := (Reachable.opened hstart).attempts _
  have hdrive : Path.delimiter ∉ root.cwd := by decide
  obtain ⟨happended, habove, -⟩ := resolve_as_appended (.opened hstart)
  obtain ⟨happendedRoot, -, hascent, hstays⟩ := resolve_as_appended hroot
  refine ⟨fun input hinput => ?_, habove, hdrive, hstays hdrive 3,
    (hascent 1).2 _ (by decide)⟩
  have hplain : ':' ∉ input ∧ input.head? ≠ some Path.delimiter := by
    revert input
    decide
  exact ⟨happended input hplain.1 hplain.2, happendedRoot input hplain.1 hplain.2⟩

end FileSystem

end DriveShell
