import DriveShell.Proofs.RelativePaths

/-!
# Absolute paths

A path is absolute if its first segment names a drive, that is, holds a colon.  An input that
holds a colon is taken for an absolute path as it stands, wherever the colon is.  So an input
with a colon in a later segment only, such as `x\y:z`, resolves to a path that begins with no
drive (`resolve_colon_further_on`).

For all inputs the first segment of what they resolve to can be told.  Settling never takes the
bottom of its stack off, and the bottom is the first segment that steps down (`firstStep?`).  An
input without a colon is appended to the current path or to its drive, and there that segment is
the current drive.  An input with a colon brings its own.  Hence a path is absolute after
resolving unless its input has a colon, but not in the first segment that steps down
(`absolute_resolve_iff`).

The other segments never go wrong.  In every case none of them is empty, `.` or `..`.
-/

namespace DriveShell

/-- A character other than the separator stays in some piece. -/
theorem Text.exists_mem_split {separator c : Char} {t : Text} (hc : c ∈ t) (other : c ≠ separator) :
    ∃ piece ∈ split separator t, c ∈ piece := by
  by_contra hnone
  have hpieces : ∀ piece ∈ split separator t, ∀ d ∈ piece, d ≠ c := by
    rintro piece hpiece d hd rfl
    exact hnone ⟨piece, hpiece, hd⟩
  have hjoin := forall_mem_join (p := (· ≠ c)) (List.forall_mem_singleton.2 other.symm) hpieces
  rw [join_split] at hjoin
  exact hjoin c hc rfl

namespace Path

/-! ## The first segment that steps down -/

/-- The first segment of a path that is not empty, `.` or `..`. -/
def firstStep? (path : Text) : Option Text := (Text.split delimiter path).find? isProper

theorem firstStep?_child (path piece : Text) :
    firstStep? (child path piece) = (firstStep? path).or (firstStep? piece) := by
  rw [firstStep?, split_child, List.find?_append]
  rfl

/-- A segment that does not step down is not put on an empty stack. -/
theorem push_nil_improper {segment : Text} (h : isProper segment = false) :
    push [] segment = [] := by
  rw [push]
  split
  next => rfl
  next hstay =>
    split
    next => rfl
    next habove =>
      obtain ⟨hnil, hhere⟩ := not_or.1 hstay
      rw [isProper_iff.2 ⟨hnil, hhere, habove⟩] at h
      cases h

/-- Settling begins with the first segment that steps down. -/
theorem head?_settle (segments : List Text) :
    (settle segments).head? = segments.find? isProper := by
  rw [settle, List.head?_reverse]
  induction segments with
  | nil => rfl
  | cons segment segments ih =>
    cases hproper : isProper segment with
    | true =>
      have hbottom : [segment].getLast? = some segment := rfl
      rw [List.foldl_cons, push_proper [] hproper, getLast?_foldl_push hbottom,
        List.find?_cons_of_pos hproper]
    | false =>
      rw [List.foldl_cons, push_nil_improper hproper, ih,
        List.find?_cons_of_neg (by simp [hproper])]

/-- The canonical form of a path begins with the first segment that steps down. -/
theorem drive_canonical (path : Text) : drive (canonical path) = (firstStep? path).getD [] := by
  have hhead := head?_settle (Text.split delimiter path)
  rw [canonical_eq_settle, firstStep?, ← hhead]
  cases hsettle : settle (Text.split delimiter path) with
  | nil => rfl
  | cons s segments =>
    have hne : settle (Text.split delimiter path) ≠ [] := by simp [hsettle]
    have hstepwise := stepwise_settle hne
    rw [hsettle] at hstepwise
    exact drive_ofSegments hstepwise

/-- If a path has a segment that steps down, then all segments of its canonical form do. -/
theorem proper_canonical {path step : Text} (h : firstStep? path = some step) :
    ∀ s ∈ Text.split delimiter (canonical path), isProper s = true := by
  have hne : settle (Text.split delimiter path) ≠ [] := by
    intro hnil
    rw [firstStep?, ← head?_settle, hnil] at h
    cases h
  have hstepwise := stepwise_settle hne
  rw [canonical_eq_settle, split_ofSegments hstepwise]
  exact hstepwise.proper

/-- A path with a colon has a segment that steps down. -/
theorem isSome_firstStep? {path : Text} (h : ':' ∈ path) : (firstStep? path).isSome := by
  obtain ⟨piece, hpiece, hcolon⟩ := Text.exists_mem_split h (show ':' ≠ delimiter by decide)
  rw [firstStep?, List.find?_isSome]
  exact ⟨piece, hpiece, isProper_of_colon hcolon⟩

theorem Stepwise.firstStep?_ofSegments {s : Text} {segments : List Text}
    (h : Stepwise (s :: segments)) : firstStep? (ofSegments (s :: segments)) = some s := by
  rw [firstStep?, split_ofSegments h, List.find?_cons_of_pos (h.proper s List.mem_cons_self)]

end Path

namespace FileSystem

variable {fs : FileSystem}

/-! ## What inputs resolve to -/

namespace Standing

/-- The current path begins with its drive. -/
theorem exists_segments_cwd (h : fs.Standing) :
    ∃ below, Path.Stepwise (fs.currentDrive :: below) ∧
      fs.cwd = Path.ofSegments (fs.currentDrive :: below) := by
  obtain ⟨below, hbelow⟩ := List.head?_eq_some_iff.1 h.head?_segments
  exact ⟨below, hbelow ▸ h.stepwise, by rw [← hbelow, h.rejoined]⟩

/-- Without a colon an input is appended to the current path or to its drive. -/
theorem firstStep?_joined (h : fs.Standing) {input : Text} (plain : ':' ∉ input) :
    ∃ path, fs.resolve input = Path.canonical path ∧
      Path.firstStep? path = some fs.currentDrive := by
  obtain ⟨below, hstepwise, hcwd⟩ := h.exists_segments_cwd
  by_cases hhead : input.head? = some Path.delimiter
  · obtain ⟨rest, rfl⟩ := List.head?_eq_some_iff.1 hhead
    have hdrive : Path.Stepwise [fs.currentDrive] :=
      hstepwise.of_subset (List.cons_ne_nil _ _) (List.cons_subset_cons _ (List.nil_subset below))
    have hfirst := hdrive.firstStep?_ofSegments
    rw [Path.ofSegments_singleton] at hfirst
    refine ⟨Path.child fs.currentDrive rest, ?_, ?_⟩
    · rw [resolve, joined, if_neg (by simpa using plain)]
      rfl
    · rw [Path.firstStep?_child, hfirst, Option.some_or]
  · refine ⟨Path.child fs.cwd input, h.resolve_relative ⟨plain, hhead⟩, ?_⟩
    rw [Path.firstStep?_child, hcwd, hstepwise.firstStep?_ofSegments, Option.some_or]

end Standing

theorem resolve_of_colon (fs : FileSystem) {input : Text} (colon : ':' ∈ input) :
    fs.resolve input = Path.canonical input := by
  rw [resolve, joined, if_pos (by simpa using colon)]

/-- The colon of `x\y:z` is not in its first segment, and the path stays as it is.  So not every
input resolves to an absolute path. -/
theorem resolve_colon_further_on :
    ¬∀ fs : FileSystem, fs.Reachable → ':' ∈ Path.drive fs.cwd → ∀ input,
      ':' ∈ Path.drive (fs.resolve input) ∧
        ∀ s ∈ Text.split Path.delimiter (fs.resolve input),
          s ≠ [] ∧ s ≠ Path.here ∧ s ≠ Path.above := by
  intro h
  have hstart : start Reference.drives {} = .ok _ := rfl
  obtain ⟨hdrive, -⟩ := h _ (.opened hstart) (by decide) "x\\y:z"
  exact absurd hdrive (by decide)

/-- Where the current path is absolute, an input resolves to an absolute path if and only if it
has no colon, or has one in the first segment that is not empty, `.` or `..`.  In either case no
segment of what it resolves to is empty, `.` or `..`. -/
theorem absolute_resolve_iff (reachable : fs.Reachable) (absolute : ':' ∈ Path.drive fs.cwd)
    (input : Text) :
    (∀ s ∈ Text.split Path.delimiter (fs.resolve input),
      s ≠ [] ∧ s ≠ Path.here ∧ s ≠ Path.above) ∧
    (':' ∈ Path.drive (fs.resolve input) ↔
      (':' ∈ input → ∃ step, Path.firstStep? input = some step ∧ ':' ∈ step)) := by
  by_cases hcolon : ':' ∈ input
  · obtain ⟨step, hstep⟩ := Option.isSome_iff_exists.1 (Path.isSome_firstStep? hcolon)
    rw [resolve_of_colon fs hcolon]
    refine ⟨fun s hs => Path.isProper_iff.1 (Path.proper_canonical hstep s hs), ?_⟩
    rw [Path.drive_canonical, hstep]
    simp [hcolon]
  · obtain ⟨path, hresolve, hpath⟩ := reachable.standing.firstStep?_joined hcolon
    rw [hresolve]
    refine ⟨fun s hs => Path.isProper_iff.1 (Path.proper_canonical hpath s hs), ?_⟩
    rw [Path.drive_canonical, hpath]
    exact iff_of_true absolute fun hmem => absurd hmem hcolon

/-- The colon is in the first segment that steps down, though other segments come before it. -/
theorem absolute_resolve_iff_late_drive :
    ∃ opened, start Reference.drives {} = .ok opened ∧ ':' ∈ Path.drive opened.cwd ∧
      (∀ s ∈ Text.split Path.delimiter (opened.resolve ".\\..\\D:\\Games\\..\\a:b"),
        s ≠ [] ∧ s ≠ Path.here ∧ s ≠ Path.above) ∧
      ':' ∈ Path.drive (opened.resolve ".\\..\\D:\\Games\\..\\a:b") := by
  have hstart : start Reference.drives {} = .ok _ := rfl
  refine ⟨_, hstart, by decide, ?_⟩
  obtain ⟨hproper, hiff⟩ := absolute_resolve_iff (.opened hstart) (by decide)
    ".\\..\\D:\\Games\\..\\a:b"
  exact ⟨hproper, hiff.2 fun _ => ⟨"D:", by decide, by decide⟩⟩

end FileSystem

end DriveShell
