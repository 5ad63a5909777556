import DriveShell.Proofs.Moves

/-!
# Protected directories

A name is protected only as the name of a child of the current directory, and only on
the primary drive.  This local check is enough for a whole path.  If the path begins
with the primary drive and goes on through protected names, then every step of it is
out of reach: the drive itself is no child of any directory, and a further step is
taken off only from the directory above it, where its name is protected.

Nothing else ends a directory.  Making needs a name that is not taken, and a
redirection or a copy writes over no directory.
-/

namespace DriveShell

namespace FileSystem

variable {fs after : FileSystem} {names : List Name}

/-- The names lead from the primary drive through protected names to a directory. -/
structure Guarded (fs : FileSystem) (names : List Name) : Prop where
  drive : names.head? = some fs.primaryDrive
  listed : ∀ name ∈ names.tail, name ∈ fs.protectedNames
  leads : (fs.drives.at? names).isSome

/-- The walk to a guarded directory does not go on from the current one by a name that
may be removed. -/
theorem Guarded.head?_ne (h : fs.Guarded names) (standing : fs.Standing) {name : Name}
    (free : fs.isProtected name = false) {rest : List Name}
    (hnames : names = Path.segments fs.cwd ++ rest) : rest.head? ≠ some name := by
  intro hrest
  obtain ⟨more, rfl⟩ := List.head?_eq_some_iff.1 hrest
  -- The current directory is on the walk, so it is on the primary drive.
  have hdrive := h.drive
  rw [hnames, List.head?_append, standing.head?_segments, Option.some_or, Option.some.injEq]
    at hdrive
  -- The name comes after the segments of the current path, so it is not the drive.
  have hlisted : name ∈ fs.protectedNames := by
    refine h.listed name ?_
    rw [hnames, List.tail_append_of_ne_nil standing.cwd_ne_nil]
    simp
  rw [isProtected, hdrive] at free
  simp [hlisted] at free

/-- A change of the current directory keeps a guarded directory if it keeps the walks that
go on from there. -/
theorem Guarded.updateHere (h : fs.Guarded names) (standing : fs.Standing)
    {change : Directory → Directory}
    (keep : ∀ rest, names = Path.segments fs.cwd ++ rest → (fs.here.at? rest).isSome →
      ((change fs.here).at? rest).isSome) :
    (fs.updateHere change).Guarded names where
  drive := h.drive
  listed := h.listed
  leads := standing.isSome_at?_updateHere h.leads keep

/-- Every move keeps a guarded directory. -/
theorem Guarded.move (h : fs.Guarded names) (standing : fs.Standing) (move : fs.Move after) :
    after.Guarded names := by
  cases move with
  | enter henter =>
    obtain ⟨-, rfl⟩ := enter_eq_ok.1 henter
    exact ⟨h.drive, h.listed, h.leads⟩
  | make hmake =>
    obtain ⟨-, hfree, rfl⟩ := makeDirectory_eq_ok.1 hmake
    refine h.updateHere standing fun rest _ hrest => ?_
    exact Directory.isSome_at?_insert hrest (Directory.sub?_eq_none (by rw [hfree]; rfl)) _
  | remove hremove =>
    obtain ⟨-, hfree, rfl⟩ := remove_eq_ok.1 hremove
    refine h.updateHere standing fun rest hnames hrest => ?_
    exact Directory.isSome_at?_erase hrest (h.head?_ne standing hfree hnames)
  | write hreserved hdirectory =>
    refine h.updateHere standing fun rest _ hrest => ?_
    obtain ⟨-, hfree⟩ := standing.target_of_not_isDirectory hreserved hdirectory
    exact Directory.isSome_at?_insert hrest (Directory.sub?_eq_none hfree) _

/-- Every run of command lines keeps a guarded directory. -/
theorem Guarded.runLines {world : World} (h : world.files.Guarded names)
    (standing : world.files.Standing) (scene : Scene) (lines : List Text) :
    (Registry.builtin.runLines scene world lines).files.Guarded names := by
  have keep : ∀ fs after : FileSystem, fs.Standing → fs.Guarded names → fs.Move after →
      after.Guarded names := fun _ _ hfs hguarded move => hguarded.move hfs move
  exact (Registry.runLines_keeps standing h keep scene lines).2

/-- A canonical path with a node is the path of a stepwise list, which begins with its drive. -/
theorem stepwise_of_lookup {path : Text} {node : Node} (canonical : Path.canonical path = path)
    (h : fs.lookup path = some node) :
    Path.Stepwise (Path.segments path) ∧ (Path.segments path).head? = some (Path.drive path) := by
  rcases Path.stepwise_of_canonical path with hnil | ⟨segments, hsegments, hpath⟩
  · rw [canonical] at hnil
    rw [hnil, lookup, Path.segments_nil] at h
    cases h
  · rw [canonical] at hpath
    subst hpath
    rw [Path.segments_ofSegments hsegments]
    refine ⟨hsegments, ?_⟩
    cases segments with
    | nil => exact absurd rfl hsegments.nonempty
    | cons s segments => rw [Path.drive_ofSegments hsegments, List.head?_cons]

/-- A directory at a canonical path that begins with the primary drive and goes on through
protected names stays a directory, whatever command lines are run. -/
theorem protected_directory_stays {drives : Directory} {config : Config} {opened : FileSystem}
    (h : start drives config = .ok opened) {path : Text}
    (canonical : Path.canonical path = path)
    (drive : Path.drive path = config.primaryDrive)
    (listed : ∀ name ∈ (Path.segments path).tail, name ∈ config.protectedNames)
    (directory : ∃ children, opened.lookup path = some (.directory children))
    (scene : Scene) {world : World} (hworld : world.files = opened) (lines : List Text) :
    ∃ children, (Registry.builtin.runLines scene world lines).files.lookup path =
      some (.directory children) := by
  obtain ⟨children, hchildren⟩ := directory
  obtain ⟨hstepwise, hhead⟩ := stepwise_of_lookup canonical hchildren
  have standing : opened.Standing := standing_of_start h
  have guarded : opened.Guarded (Path.segments path) := by
    obtain ⟨-, rfl⟩ := start_eq_ok.1 h
    refine ⟨by rw [hhead, drive], listed, ?_⟩
    rw [(lookup_eq_directory hstepwise.nonempty).1 hchildren]
    rfl
  rw [← hworld] at standing guarded
  obtain ⟨last, hlast⟩ :=
    Option.isSome_iff_exists.1 (guarded.runLines standing scene lines).leads
  exact ⟨last, (lookup_eq_directory hstepwise.nonempty).2 hlast⟩

theorem protected_directory_stays_system :
    ∃ opened, start Reference.drives {} = .ok opened ∧
      ∃ children, (Registry.builtin.runLines Registry.epoch { files := opened }
        ["rmdir /s Desktop", "cd \\", "rmdir /s Windows", "cd Windows", "del -rf System32",
          "echo x > System32", "copy Temp System32", "cd System32", "rmdir /s drivers"]).files.lookup
        "C:\\Windows\\System32" = some (.directory children) := by
  have hstart : start Reference.drives {} = .ok _ := rfl
  refine ⟨_, hstart, ?_⟩
  exact protected_directory_stays hstart (by decide) (by decide) (by decide) ⟨_, rfl⟩
    Registry.epoch rfl _

end FileSystem

end DriveShell
