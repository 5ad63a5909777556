import DriveShell.Proofs.Drawings
import DriveShell.Proofs.Reach

/-!
# Paths in a drawing

The current directory is drawn without its own path.  Put behind that path, the names that are
read off a drawing give a path for each line.  These are the canonical paths below the current one
where a look-up finds a node, each of them once, and a line ends in a slash if it finds a directory
there (`drawing_agrees_with_lookup`).

The way from the names to the path and back goes through the segments of the path (`found_pathOf`,
`exists_pathOf`).  Valid names are segments that step down, so none is lost when the path is cut.
Everything else is said of the tree alone: what a drawing is read back as, and which nodes come in
pre-order.
-/

namespace DriveShell

/-! ## Paths below the current directory -/

namespace FileSystem

variable {fs : FileSystem}

/-- Every name below the drives is valid and has no line break. -/
def NamesOnOneLine (fs : FileSystem) : Prop :=
  ∀ drive ∈ fs.drives.toList,
    drive.2.allNames (fun name => Path.isValidName name && !name.contains '\n') = true

instance : Decidable fs.NamesOnOneLine :=
  inferInstanceAs (Decidable (∀ drive ∈ fs.drives.toList, _))

/-- The path of some names below the current directory. -/
def pathOf (fs : FileSystem) (names : List Name) : Text :=
  Path.child fs.cwd (Path.ofSegments names)

/-- What the lines of a drawing say of the current directory: the path of each node, and whether
the line ends in a slash. -/
def drawnPaths (fs : FileSystem) (drawing : Text) : List (Text × Bool) :=
  (Drawing.read drawing).map fun (names, slash) => (fs.pathOf names, slash)

namespace Standing

theorem pathOf_eq (h : fs.Standing) {names : List Name} (nonempty : names ≠ []) :
    fs.pathOf names = Path.ofSegments (Path.segments fs.cwd ++ names) := by
  rw [Path.ofSegments_append h.cwd_ne_nil nonempty, h.rejoined]
  rfl

theorem stepwise_append (h : fs.Standing) {names : List Name}
    (valid : ∀ name ∈ names, Path.isValidName name = true) :
    Path.Stepwise (Path.segments fs.cwd ++ names) := by
  refine h.stepwise.append (fun name hname => ?_) fun name hname => plain_of_free ?_
  · exact (Bool.and_eq_true_iff.1 (valid name hname)).1
  · simpa using (Bool.and_eq_true_iff.1 (valid name hname)).2

/-- The path of valid names that lead to a node is canonical, and the node is found there. -/
theorem found_pathOf (h : fs.Standing) {names : List Name} {node : Node}
    (valid : ∀ name ∈ names, Path.isValidName name = true)
    (found : fs.here.find? names = some node) :
    Path.canonical (fs.pathOf names) = fs.pathOf names ∧
      Path.segments (fs.pathOf names) = Path.segments fs.cwd ++ names ∧
      fs.lookup (fs.pathOf names) = some node := by
  have nonempty : names ≠ [] := by
    rintro rfl
    cases found
  have hstepwise := h.stepwise_append valid
  rw [lookup, h.pathOf_eq nonempty, Path.segments_ofSegments hstepwise,
    Directory.find?_append _ _ nonempty, h.at?_cwd]
  exact ⟨Path.canonical_ofSegments hstepwise, rfl, found⟩

/-- A canonical path below the current one, where a node is found, is the path of some names that
lead to it. -/
theorem exists_pathOf (h : fs.Standing) {path : Text} {node : Node}
    (canonical : Path.canonical path = path) (below : Path.Below fs.cwd path)
    (found : fs.lookup path = some node) :
    ∃ names, path = fs.pathOf names ∧ fs.here.find? names = some node := by
  obtain ⟨rest, rfl⟩ := below
  have hjoin := Path.ofSegments_segments canonical
  rw [Path.segments_child] at hjoin
  have hrest : Path.segments rest ≠ [] := by
    intro hnil
    rw [hnil, List.append_nil, h.rejoined] at hjoin
    have hlength := congrArg List.length hjoin
    rw [Path.child, List.length_append, List.length_cons] at hlength
    omega
  rw [lookup, Path.segments_child, Directory.find?_append _ _ hrest, h.at?_cwd] at found
  exact ⟨Path.segments rest, by rw [h.pathOf_eq hrest, hjoin], found⟩

/-- No two nodes below the current directory have one path. -/
theorem nodup_pathOf (h : fs.Standing) (distinct : fs.here.distinct = true)
    (valid : fs.here.allNames Path.isValidName = true) :
    ((fs.here.preorder.map Prod.fst).map fs.pathOf).Nodup := by
  have hsegments : ∀ names ∈ fs.here.preorder.map Prod.fst,
      Path.segments (fs.pathOf names) = Path.segments fs.cwd ++ names := by
    intro names hmem
    obtain ⟨⟨_, node⟩, hnode, rfl⟩ := List.mem_map.1 hmem
    have hfound := (Directory.mem_preorder_iff distinct).1 hnode
    exact (h.found_pathOf (Directory.allNames_find? valid hfound) hfound).2.1
  refine (Directory.nodup_preorder distinct).map_on fun names hnames others hothers heq => ?_
  have happend := congrArg Path.segments heq
  rwa [hsegments names hnames, hsegments others hothers, List.append_cancel_left_eq] at happend

/-- The nodes below the current directory are the ones that a look-up of their paths finds. -/
theorem mem_pathOf_iff (h : fs.Standing) (distinct : fs.here.distinct = true)
    (valid : fs.here.allNames Path.isValidName = true) {path : Text} {slash : Bool} :
    (path, slash) ∈ fs.here.preorder.map
        (fun (names, node) => (fs.pathOf names, node.isDirectory)) ↔
      Path.canonical path = path ∧ Path.Below fs.cwd path ∧
        ∃ node, fs.lookup path = some node ∧ node.isDirectory = slash := by
  rw [List.mem_map]
  constructor
  · rintro ⟨⟨names, node⟩, hmem, heq⟩
    cases heq
    have hfound := (Directory.mem_preorder_iff distinct).1 hmem
    obtain ⟨hcanonical, -, hlookup⟩ :=
      h.found_pathOf (Directory.allNames_find? valid hfound) hfound
    exact ⟨hcanonical, ⟨_, rfl⟩, node, hlookup, rfl⟩
  · rintro ⟨hcanonical, hbelow, node, hlookup, rfl⟩
    obtain ⟨names, rfl, hfound⟩ := h.exists_pathOf hcanonical hbelow hlookup
    exact ⟨(names, node), (Directory.mem_preorder_iff distinct).2 hfound, rfl⟩

theorem draw_none (h : fs.Standing) : fs.draw none = .ok fs.here.drawing := by
  rw [draw, target, (lookup_eq_directory h.cwd_ne_nil).2 h.at?_cwd]

end Standing

/-- After any calls from an opened file system over a forest that insertions build, and if every
name below the drives is valid and has no line break, the current directory is drawn, and the
drawing agrees with look-ups.  Line by line it gives the nodes below the current directory in
pre-order, with a slash for each directory.  No path is given twice, and given are exactly the
canonical paths below the current one where a node is found. -/
theorem drawing_agrees_with_lookup {drives : Directory} {config : Config} {opened : FileSystem}
    (built : drives.Built) (h : start drives config = .ok opened) (changes : List Change)
    (oneLine : (opened.attempts changes).NamesOnOneLine) :
    let fs := opened.attempts changes
    ∃ drawing, fs.draw none = .ok drawing ∧
      fs.drawnPaths drawing =
        fs.here.preorder.map (fun (names, node) => (fs.pathOf names, node.isDirectory)) ∧
      ((fs.drawnPaths drawing).map Prod.fst).Nodup ∧
      ∀ path slash, (path, slash) ∈ fs.drawnPaths drawing ↔
        Path.canonical path = path ∧ Path.Below fs.cwd path ∧
          ∃ node, fs.lookup path = some node ∧ node.isDirectory = slash := by
  intro fs
  have standing : fs.Standing := ((Reachable.opened h).attempts changes).standing
  have distinct : fs.here.distinct = true :=
    Directory.distinct_at? (distinct_attempts built h changes) standing.at?_cwd
  have hhere := standing.allNames_here oneLine
  have hvalid : fs.here.allNames Path.isValidName = true :=
    fs.here.allNames_mono (fun name hname => (Bool.and_eq_true_iff.1 hname).1) hhere
  have hlegible : fs.here.allNames Drawing.isLegible = true :=
    fs.here.allNames_mono (fun name hname => Drawing.isLegible_of_valid hname) hhere
  have hdrawn : fs.drawnPaths fs.here.drawing =
      fs.here.preorder.map (fun (names, node) => (fs.pathOf names, node.isDirectory)) := by
    rw [drawnPaths, Drawing.read_drawing hlegible, List.map_map]
    rfl
  refine ⟨_, standing.draw_none, hdrawn, ?_, fun path slash => ?_⟩
  · have hnodup := standing.nodup_pathOf distinct hvalid
    rw [List.map_map] at hnodup
    rw [hdrawn, List.map_map]
    exact hnodup
  · rw [hdrawn]
    exact standing.mem_pathOf_iff distinct hvalid

/-- Names that look like rails and branches are told from them. -/
theorem drawing_agrees_with_lookup_rails :
    ∃ opened, start Reference.drives {} = .ok opened ∧
      let fs := opened.attempts [.enter "..\\..\\ProgramData", .make "│   ", .write "    └── b" "1",
        .enter "│   ", .make "├── a", .enter ".."]
      fs.NamesOnOneLine ∧
      ∃ drawing, fs.draw none = .ok drawing ∧
        fs.drawnPaths drawing = ([("C:\\ProgramData\\│   ", true),
          ("C:\\ProgramData\\│   \\├── a", true),
          ("C:\\ProgramData\\    └── b", false)] : List (Text × Bool)) ∧
        ((fs.drawnPaths drawing).map Prod.fst).Nodup ∧
        ∀ path slash, (path, slash) ∈ fs.drawnPaths drawing ↔
          Path.canonical path = path ∧ Path.Below fs.cwd path ∧
            ∃ node, fs.lookup path = some node ∧ node.isDirectory = slash := by
  have hstart : start Reference.drives {} = .ok _ := rfl
  have hbuilt : Reference.drives.Built := Directory.built_iff_distinct.2 (by decide +kernel)
  refine ⟨_, hstart, ?_⟩
  intro fs
  have honeLine : fs.NamesOnOneLine := by decide +kernel
  obtain ⟨drawing, hdraw, hdrawn, hnodup, hpaths⟩ :=
    drawing_agrees_with_lookup hbuilt hstart _ honeLine
  exact ⟨honeLine, drawing, hdraw, hdrawn.trans (by decide +kernel), hnodup, hpaths⟩

end FileSystem

end DriveShell
