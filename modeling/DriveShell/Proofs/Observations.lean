import DriveShell.Proofs.DistinctNames
import DriveShell.Proofs.RelativePaths

/-!
# Observations

What is seen of a file system from outside is, at each canonical path, one of three
things: nothing, a directory, or a file with its content.  Four calls change one name of
the current directory.  Each is described by what is seen at that name afterwards, and by
the frame: at every canonical path that is neither the path of the name nor below it, the
same is seen as before (`SameOutside`).

On the tree the frame is one induction along the walk to the changed directory
(`observation_updateAt`).  A directory on the way is replaced by a changed one, and a
directory is seen in both.  Where another walk leaves this way it comes to nodes that are
not touched.
-/

namespace DriveShell

/-- What is seen where a node may be. -/
inductive Observation
  /-- Nothing. -/
  | absent
  /-- A directory, whatever it holds. -/
  | directory
  /-- A file with its content. -/
  | file (content : Text)
deriving DecidableEq

/-- The observation of a node that may be there. -/
def Observation.of : Option Node → Observation
  | none => .absent
  | some (.directory _) => .directory
  | some (.file content) => .file content

/-! ## Paths at or below another one -/

namespace Path

/-- Whether a path is another one or goes on from it. -/
def AtOrBelow (top path : Text) : Prop := path = top ∨ ∃ rest, path = child top rest

theorem segments_child (path piece : Text) :
    segments (child path piece) = segments path ++ segments piece := by
  rw [segments, split_child, List.filter_append]
  rfl

/-- A name without a delimiter is one segment. -/
theorem segments_of_plain {name : Text} (plain : delimiter ∉ name) (nonempty : name ≠ []) :
    segments name = [name] := by
  rw [segments, Text.split_plain plain]
  simp [nonempty]

theorem segments_of_atOrBelow {top path : Text} (h : AtOrBelow top path) :
    segments top <+: segments path := by
  rcases h with rfl | ⟨rest, rfl⟩
  · exact List.prefix_rfl
  · rw [segments_child]
    exact List.prefix_append _ _

theorem ofSegments_append {before after : List Text} (hbefore : before ≠ []) (hafter : after ≠ []) :
    ofSegments (before ++ after) = child (ofSegments before) (ofSegments after) := by
  rw [ofSegments, Text.join_append _ hbefore hafter, List.append_assoc, List.singleton_append, child,
    ofSegments, ofSegments]

/-- A canonical path whose segments begin with those of another one is at or below it. -/
theorem atOrBelow_of_prefix {before : List Text} {path : Text} (canonical : canonical path = path)
    (nonempty : before ≠ []) (h : before <+: segments path) :
    AtOrBelow (ofSegments before) path := by
  obtain ⟨rest, hrest⟩ := h
  rw [← ofSegments_segments canonical, ← hrest]
  cases rest with
  | nil => exact Or.inl (by rw [List.append_nil])
  | cons s rest => exact Or.inr ⟨_, ofSegments_append nonempty (List.cons_ne_nil s rest)⟩

end Path

/-! ## What is seen in a changed tree -/

namespace Directory

variable {d : Directory} {name : Name}

theorem find?_cons_of_get? {c : Directory} (h : d.get? name = c.get? name) (names : List Name) :
    d.find? (name :: names) = c.find? (name :: names) := by
  cases names with
  | nil => exact h
  | cons below names => rw [find?, find?, h]

theorem find?_cons_of_free (h : d.get? name = none) (names : List Name) :
    d.find? (name :: names) = none := by
  cases names with
  | nil => exact h
  | cons below names => rw [find?, h]

/-- A change of one name in the directory at the end of a walk is seen at that name or
below it, or nowhere. -/
theorem observation_updateAt {change : Directory → Directory} {names path : List Name}
    (keep : ∀ c other, name ≠ other → (change c).get? other = c.get? other)
    (outside : ¬ names ++ [name] <+: path) :
    Observation.of ((d.updateAt change names).find? path) = Observation.of (d.find? path) := by
  induction names generalizing d path with
  | nil =>
    cases path with
    | nil => rfl
    | cons first path =>
      have hname : name ≠ first := by
        rintro rfl
        exact outside (by simp)
      rw [updateAt, find?_cons_of_get? (keep d first hname)]
  | cons step names ih =>
    cases hc : d.sub? step with
    | none => rw [updateAt_cons_none hc]
    | some children =>
      rw [updateAt_cons_some hc]
      cases path with
      | nil => rfl
      | cons first path =>
        by_cases hstep : step = first
        · subst hstep
          have hbelow : ¬ names ++ [name] <+: path := by simpa using outside
          cases path with
          -- The path ends at a directory on the way, which is one before and after.
          | nil => rw [find?, find?, get?_insert_self, sub?_eq_some.1 hc]; rfl
          | cons next path =>
            have hmore : next :: path ≠ [] := List.cons_ne_nil next path
            rw [find?_cons _ _ hmore, find?_cons _ _ hmore,
              sub?_eq_some.2 (get?_insert_self d step _), hc]
            exact ih hbelow
        · rw [find?_cons_of_get? (get?_insert_of_ne d hstep _)]

end Directory

/-! ## What is seen at a name -/

namespace FileSystem

variable {fs after : FileSystem} {name : Name}

/-- What is seen at a path. -/
def observe (fs : FileSystem) (path : Text) : Observation := .of (fs.lookup path)

/-- The current path is the same, and at every canonical path that is not at or below
another one the same is seen. -/
structure SameOutside (top : Text) (fs after : FileSystem) : Prop where
  cwd : after.cwd = fs.cwd
  observations : ∀ path, Path.canonical path = path → ¬ Path.AtOrBelow top path →
    after.observe path = fs.observe path

namespace Standing

/-- The segments of a child, whatever stands under its name. -/
theorem segments_child_plain (fs : FileSystem) (plain : Path.delimiter ∉ name)
    (nonempty : name ≠ []) :
    Path.segments (Path.child fs.cwd name) = Path.segments fs.cwd ++ [name] := by
  rw [Path.segments_child, Path.segments_of_plain plain nonempty]

theorem lookup_child_plain (h : fs.Standing) (plain : Path.delimiter ∉ name)
    (nonempty : name ≠ []) : fs.lookup (Path.child fs.cwd name) = fs.here.get? name := by
  rw [lookup, segments_child_plain fs plain nonempty,
    Directory.find?_append _ _ (List.cons_ne_nil name []), h.at?_cwd]
  rfl

/-- A proper name without a delimiter or a colon leads to the child of that name. -/
theorem find?_plain (h : fs.Standing) (plain : Path.delimiter ∉ name) (colonless : ':' ∉ name)
    (proper : Path.isProper name = true) : fs.find? name = fs.here.get? name := by
  have hrelative : Path.IsRelative name :=
    ⟨colonless, fun hhead => plain (List.mem_of_mem_head? hhead)⟩
  have hcanonical := Path.canonical_ofSegments (h.stepwise.concat proper plain)
  rw [← Path.child_ofSegments h.cwd_ne_nil, h.rejoined] at hcanonical
  rw [find?, h.resolve_relative hrelative, hcanonical,
    h.lookup_child_plain plain (Path.isProper_iff.1 proper).1]

theorem here_updateHere (h : fs.Standing) (change : Directory → Directory) :
    (fs.updateHere change).here = change fs.here := by
  rw [here, h.here?_updateHere]
  rfl

theorem lookup_updateHere (h : fs.Standing) (plain : Path.delimiter ∉ name) (nonempty : name ≠ [])
    (change : Directory → Directory) :
    (fs.updateHere change).lookup (Path.child fs.cwd name) = (change fs.here).get? name := by
  have hlookup := (h.updateHere change).lookup_child_plain plain nonempty
  rwa [h.here_updateHere] at hlookup

/-- A change of one name in the current directory is seen nowhere else. -/
theorem sameOutside_updateHere (h : fs.Standing) {change : Directory → Directory}
    (keep : ∀ c other, name ≠ other → (change c).get? other = c.get? other) :
    SameOutside (Path.child fs.cwd name) fs (fs.updateHere change) where
  cwd := rfl
  observations path canonical outside := by
    have hnames : ¬ Path.segments fs.cwd ++ [name] <+: Path.segments path := by
      intro hprefix
      have hbelow := Path.atOrBelow_of_prefix canonical (by simp) hprefix
      rw [← Path.child_ofSegments h.cwd_ne_nil, h.rejoined] at hbelow
      exact outside hbelow
    exact Directory.observation_updateAt keep hnames

/-- What is written under a name is read under it, and nothing else is seen to change. -/
theorem writeFile (h : fs.Standing) (plain : Path.delimiter ∉ name) (colonless : ':' ∉ name)
    (proper : Path.isProper name = true) (content : Text) :
    let after := fs.writeFile name content
    after.lookup (Path.child fs.cwd name) = some (.file content) ∧ after.read name = .ok content ∧
      SameOutside (Path.child fs.cwd name) fs after := by
  have nonempty : name ≠ [] := (Path.isProper_iff.1 proper).1
  refine ⟨?_, ?_, h.sameOutside_updateHere fun c _ hother => c.get?_insert_of_ne hother _⟩
  · rw [FileSystem.writeFile, h.lookup_updateHere plain nonempty, Directory.get?_insert_self]
  · rw [read_eq_ok, FileSystem.writeFile, (h.updateHere _).find?_plain plain colonless proper,
      h.here_updateHere, Directory.get?_insert_self]

/-- What is removed is seen no more, nor anything below it. -/
theorem lookup_erase (h : fs.Standing) (distinct : fs.drives.distinct = true)
    (plain : Path.delimiter ∉ name) (nonempty : name ≠ []) {path : Text}
    (below : Path.AtOrBelow (Path.child fs.cwd name) path) :
    (fs.updateHere (·.erase name)).lookup path = none := by
  obtain ⟨rest, hrest⟩ := Path.segments_of_atOrBelow below
  have hnodup : fs.here.names.Nodup :=
    (Directory.distinct_iff.1 (Directory.distinct_at? distinct h.at?_cwd)).1
  have hgone : (fs.here.erase name).get? name = none := Directory.get?_erase_self hnodup name
  have hhere : (fs.updateHere (·.erase name)).drives.at? (Path.segments fs.cwd) =
      some (fs.here.erase name) := by
    rw [FileSystem.updateHere, Directory.at?_updateAt, h.at?_cwd]
    rfl
  rw [lookup, ← hrest, segments_child_plain fs plain nonempty, List.append_assoc,
    Directory.find?_append _ _ (by simp), hhere]
  exact Directory.find?_cons_of_free hgone rest

end Standing

/-! ## Every call in every reachable file system -/

/-- After any calls from an opened file system over a forest that insertions build, and for
every proper name without backslash or colon: what is made is seen as an empty directory,
what is written is seen and read as a file with that content, what is removed is not seen
at or below its path, and what is copied is read as the source was.  In each case the
current path is the same and nothing else is seen to change. -/
theorem observations_after_call {drives : Directory} {config : Config} {opened : FileSystem}
    (built : drives.Built) (h : start drives config = .ok opened) (changes : List Change)
    {name : Name} (plain : Path.delimiter ∉ name) (colonless : ':' ∉ name)
    (proper : name ≠ [] ∧ name ≠ Path.here ∧ name ≠ Path.above) :
    let fs := opened.attempts changes
    let path := Path.child fs.cwd name
    (∀ after, fs.makeDirectory name = .ok after →
      after.lookup path = some (.directory .empty) ∧ SameOutside path fs after) ∧
    (∀ content, (fs.writeFile name content).observe path = .file content ∧
      (fs.writeFile name content).read name = .ok content ∧
      SameOutside path fs (fs.writeFile name content)) ∧
    (∀ recursive after, fs.remove name recursive = .ok after →
      (∀ below, Path.AtOrBelow path below → after.observe below = .absent) ∧
      SameOutside path fs after) ∧
    (∀ source after, fs.copyFile source name = .ok after →
      (∃ content, fs.read source = .ok content ∧ after.read name = .ok content) ∧
      SameOutside path fs after) := by
  intro fs path
  have standing : fs.Standing := ((Reachable.opened h).attempts changes).standing
  have distinct : fs.drives.distinct = true := distinct_attempts built h changes
  have hproper : Path.isProper name = true := Path.isProper_iff.2 proper
  have hwrite := standing.writeFile plain colonless hproper
  refine ⟨fun after hmake => ?_, fun content => ?_, fun recursive after hremove => ?_,
    fun source after hcopy => ?_⟩
  · obtain ⟨-, -, rfl⟩ := makeDirectory_eq_ok.1 hmake
    refine ⟨?_, standing.sameOutside_updateHere fun c _ hother => c.get?_insert_of_ne hother _⟩
    rw [standing.lookup_updateHere plain proper.1, Directory.get?_insert_self]
  · obtain ⟨hlookup, hread, hsame⟩ := hwrite content
    exact ⟨by rw [observe, hlookup]; rfl, hread, hsame⟩
  · obtain ⟨-, -, rfl⟩ := remove_eq_ok.1 hremove
    refine ⟨fun below hbelow => ?_,
      standing.sameOutside_updateHere fun c _ hother => c.get?_erase_of_ne hother⟩
    rw [observe, standing.lookup_erase distinct plain proper.1 hbelow]
    rfl
  · obtain ⟨content, hfind, rfl⟩ := copyFile_eq_ok.1 hcopy
    obtain ⟨-, hread, hsame⟩ := hwrite content
    exact ⟨⟨content, read_eq_ok.2 hfind, hread⟩, hsame⟩

/-- Beside a directory that has just been filled: another one is made, and the filled one is
written over, removed as a whole, and copied over with a file from inside it. -/
theorem observations_after_call_public :
    ∃ opened, start Reference.drives {} = .ok opened ∧
      let fs := opened.attempts [.enter "..\\Public", .make "a/b", .write "new" "1", .make "new",
        .enter ".."]
      let path := Path.child fs.cwd "Public"
      (∃ after, fs.makeDirectory "Private" = .ok after ∧
        after.lookup (Path.child fs.cwd "Private") = some (.directory .empty) ∧
        SameOutside (Path.child fs.cwd "Private") fs after) ∧
      ((fs.writeFile "Public" "2").observe path = .file "2" ∧
        (fs.writeFile "Public" "2").read "Public" = .ok "2" ∧
        SameOutside path fs (fs.writeFile "Public" "2")) ∧
      (∃ after, fs.remove "Public" true = .ok after ∧
        (∀ below, Path.AtOrBelow path below → after.observe below = .absent) ∧
        SameOutside path fs after) ∧
      ∃ after, fs.copyFile "Public\\new" "Public" = .ok after ∧
        (∃ content, fs.read "Public\\new" = .ok content ∧ after.read "Public" = .ok content) ∧
        SameOutside path fs after := by
  have hstart : start Reference.drives {} = .ok _ := rfl
  have hbuilt : Reference.drives.Built := Directory.built_iff_distinct.2 (by decide +kernel)
  refine ⟨_, hstart, ?_⟩
  intro fs path
  obtain ⟨-, hwrite, hremove, hcopy⟩ :=
    observations_after_call hbuilt hstart [.enter "..\\Public", .make "a/b", .write "new" "1",
      .make "new", .enter ".."]
      (show Path.delimiter ∉ "Public".toList by decide) (by decide) (by decide)
  obtain ⟨hmake, -⟩ :=
    observations_after_call hbuilt hstart [.enter "..\\Public", .make "a/b", .write "new" "1",
      .make "new", .enter ".."]
      (show Path.delimiter ∉ "Private".toList by decide) (by decide) (by decide)
  exact ⟨⟨_, rfl, hmake _ rfl⟩, hwrite _, ⟨_, rfl, hremove true _ rfl⟩, ⟨_, rfl, hcopy _ _ rfl⟩⟩

end FileSystem

end DriveShell
