import DriveShell.Proofs.AbsolutePaths

/-!
# Canonical forms of joined paths

A path that is put together piece by piece may be made canonical at the end, or after every piece.
It comes to the same (`canonical_foldl_child`), because settling some segments and going on with
more is settling them all.  The stack that is left in between is that of the canonical form, and it
makes no difference that an empty one is written as the empty path.

Two things can be said of the canonical form without knowing the path.  Unless it is empty, all of
its segments step down.  And it begins with the first segment of the path that does, since the
bottom of the stack is never taken off.  So a path that begins with a drive stays on it, however
many `..` come after it (`drive_canonical_child`).
-/

namespace DriveShell

namespace Path

variable {path d : Text}

/-- Making a path canonical after each of its pieces is making it canonical at the end. -/
theorem canonical_foldl_child (path : Text) (pieces : List Text) :
    pieces.foldl (fun before piece => canonical (child before piece)) (canonical path) =
      canonical (pieces.foldl child path) := by
  induction pieces generalizing path with
  | nil => rfl
  | cons piece pieces ih => rw [List.foldl_cons, List.foldl_cons, canonical_child_canonical, ih]

/-- All segments of a canonical form step down, unless it is empty. -/
theorem proper_canonical_of_ne_nil (nonempty : canonical path ≠ []) :
    ∀ s ∈ Text.split delimiter (canonical path), isProper s = true := by
  obtain ⟨segments, hsegments, hpath⟩ := (stepwise_of_canonical path).resolve_left nonempty
  rw [hpath, split_ofSegments hsegments]
  exact hsegments.proper

theorem firstStep?_of_plain (proper : isProper d = true) (plain : delimiter ∉ d) :
    firstStep? d = some d := by
  rw [firstStep?, Text.split_plain plain, List.find?_cons_of_pos proper]

/-- A path that begins with a proper segment keeps it. -/
theorem drive_canonical_child (proper : isProper d = true) (plain : delimiter ∉ d) (rest : Text) :
    drive (canonical (child d rest)) = d := by
  rw [drive_canonical, firstStep?_child, firstStep?_of_plain proper plain, Option.some_or,
    Option.getD_some]

/-- For all paths: the canonical form of a path may be taken before anything is joined to it, and
after each piece that is joined; to take it twice is to take it once; no segment of it is empty,
`.` or `..` unless it is empty itself; and a first segment that is none of these is its drive,
whatever is joined to it. -/
theorem canonical_of_joined :
    (∀ a b, canonical (child (canonical a) b) = canonical (child a b)) ∧
    (∀ a (pieces : List Text),
      pieces.foldl (fun before piece => canonical (child before piece)) (canonical a) =
        canonical (pieces.foldl child a)) ∧
    (∀ a, canonical (canonical a) = canonical a) ∧
    (∀ a, canonical a ≠ [] →
      ∀ s ∈ Text.split delimiter (canonical a), s ≠ [] ∧ s ≠ here ∧ s ≠ above) ∧
    ∀ d, d ≠ [] → d ≠ here → d ≠ above → delimiter ∉ d →
      drive (canonical d) = d ∧ ∀ rest, drive (canonical (child d rest)) = d := by
  refine ⟨canonical_child_canonical, canonical_foldl_child, canonical_canonical,
    fun a nonempty s hs => isProper_iff.1 (proper_canonical_of_ne_nil nonempty s hs),
    fun d hnil hhere habove plain => ?_⟩
  have proper : isProper d = true := isProper_iff.2 ⟨hnil, hhere, habove⟩
  refine ⟨?_, drive_canonical_child proper plain⟩
  rw [drive_canonical, firstStep?_of_plain proper plain, Option.getD_some]

/-- A path whose first segments are worked off, and a segment of three dots, which is a proper
one. -/
theorem canonical_of_joined_three_dots :
    canonical "..\\.\\\\C:\\..\\x\\" ≠ [] ∧
    (∀ s ∈ Text.split delimiter (canonical "..\\.\\\\C:\\..\\x\\"),
      s ≠ [] ∧ s ≠ here ∧ s ≠ above) ∧
    ("...".toList ≠ [] ∧ "...".toList ≠ here ∧ "...".toList ≠ above ∧ delimiter ∉ "...".toList) ∧
    drive (canonical (child "..." "..\\..\\x\\..\\..")) = "...".toList := by
  obtain ⟨-, -, -, hproper, hdrive⟩ := canonical_of_joined
  have nonempty : canonical "..\\.\\\\C:\\..\\x\\" ≠ [] := by decide
  refine ⟨nonempty, hproper _ nonempty, by decide, ?_⟩
  exact (hdrive _ (by decide) (by decide) (by decide) (by decide)).2 _

end Path

end DriveShell
