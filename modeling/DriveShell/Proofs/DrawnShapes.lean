import DriveShell.Proofs.Drawings

/-!
# Drawings tell shapes apart

Two directories have one shape if they have the same names in the same order with the same kinds at
every depth, that is, if they are equal once all files are emptied (`Directory.bare`).  Directories
with one drawing have one shape, as long as their names can be read off a line (`drawing_eq_iff`).

A drawing is read back as the nodes in pre-order, each with the names that lead to it and its kind.
This sequence is a forest written down without brackets, and the number of names is what stands in
for them: what is below an entry ends where a row is as short as that of the entry
(`takeWhile_rows`).  So the sequence is parted into the rows below the first entry and those of the
entries after it, and the induction goes into both.  Names need not be distinct for this.
-/

namespace DriveShell

/-! ## Shapes -/

mutual

/-- A node with all its files emptied. -/
def Node.bare : Node → Node
  | .file _ => .file []
  | .directory children => .directory children.bare

/-- A directory with all its files emptied. -/
def Directory.bare : Directory → Directory
  | .empty => .empty
  | .entry name node rest => .entry name node.bare rest.bare

end

namespace Drawing

open Directory (preorder)

variable {before : List Name} {name : Name}

/-- The rows of a directory are longer than the names in front of them. -/
theorem length_of_mem_rows {d : Directory} {row : List Name × Bool}
    (h : row ∈ rows before d.preorder) : before.length < row.1.length := by
  obtain ⟨⟨names, node⟩, hmem, rfl⟩ := List.mem_map.1 h
  obtain ⟨first, below, rfl, -⟩ := Directory.cons_of_mem_preorder hmem
  rw [List.length_append, List.length_cons]
  omega

/-- The rows below an entry come to an end where a row is no longer than that of the entry. -/
theorem takeWhile_rows (before : List Name) (name : Name) (node : Node) (rest : Directory) :
    (rows (before ++ [name]) node.preorder ++ rows before rest.preorder).takeWhile
      (fun row => before.length + 1 < row.1.length) = rows (before ++ [name]) node.preorder := by
  have hbelow : ∀ row ∈ rows (before ++ [name]) node.preorder,
      decide (before.length + 1 < row.1.length) = true := by
    intro row hrow
    cases node with
    | file content => cases hrow
    | directory children =>
      have hlength := length_of_mem_rows hrow
      rw [List.length_append, List.length_singleton] at hlength
      exact decide_eq_true hlength
  rw [List.takeWhile_append_of_pos hbelow]
  cases rest with
  | empty => exact List.append_nil _
  | entry next node rest =>
    rw [rows_entry, List.takeWhile_cons_of_neg (by simp), List.append_nil]

/-- The rows of a directory determine its shape. -/
theorem bare_eq_of_rows {d d' : Directory}
    (h : rows before d.preorder = rows before d'.preorder) : d.bare = d'.bare := by
  induction d using Directory.nested generalizing before d' with
  | empty =>
    cases d' with
    | empty => rfl
    | entry name' node' rest' =>
      rw [rows_entry] at h
      cases h
  | entry name node rest ihbelow ihrest =>
    cases d' with
    | empty =>
      rw [rows_entry] at h
      cases h
    | entry name' node' rest' =>
      rw [rows_entry, rows_entry, List.cons.injEq, Prod.mk.injEq] at h
      obtain ⟨⟨hnames, hkind⟩, hrows⟩ := h
      have hname : name = name' := by simpa using hnames
      subst hname
      have hbelow := congrArg
        (List.takeWhile fun row => decide (before.length + 1 < row.1.length)) hrows
      rw [takeWhile_rows, takeWhile_rows] at hbelow
      have hrest : rest.bare = rest'.bare := by
        rw [hbelow, List.append_cancel_left_eq] at hrows
        exact ihrest hrows
      have hnode : node.bare = node'.bare := by
        cases node with
        | file content =>
          cases node' with
          | file content' => rfl
          | directory children' => cases hkind
        | directory children =>
          cases node' with
          | file content' => cases hkind
          | directory children' =>
            rw [Node.bare, Node.bare, ihbelow children rfl hbelow]
      rw [Directory.bare, Directory.bare, hnode, hrest]

end Drawing

namespace Directory

theorem isEmpty_bare (d : Directory) : d.bare.isEmpty = d.isEmpty := by
  cases d with
  | empty => rfl
  | entry name node rest => rfl

/-- A drawing does not show what is in the files. -/
theorem linesBelow_bare (rails : Text) (d : Directory) :
    Drawing.linesBelow rails d.bare = Drawing.linesBelow rails d := by
  induction d using nested generalizing rails with
  | empty => rfl
  | entry name node rest ihbelow ihrest =>
    cases node with
    | file content =>
      rw [bare, Node.bare, Drawing.linesBelow, Drawing.linesBelow, isEmpty_bare, ihrest]
    | directory children =>
      rw [bare, Node.bare, Drawing.linesBelow, Drawing.linesBelow, isEmpty_bare, ihrest,
        ihbelow children rfl]

theorem drawing_bare (d : Directory) : d.bare.drawing = d.drawing := by
  rw [drawing, drawing, drawingLines, drawingLines, linesBelow_bare]

/-- Directories whose names hold no line break and no slash have one drawing exactly if they have
one shape. -/
theorem drawing_eq_iff {d d' : Directory} (legible : d.allNames Drawing.isLegible = true)
    (legible' : d'.allNames Drawing.isLegible = true) :
    d.drawing = d'.drawing ↔ d.bare = d'.bare := by
  constructor
  · intro h
    have hrows : Drawing.rows [] d.preorder = Drawing.rows [] d'.preorder :=
      calc Drawing.rows [] d.preorder
          = Drawing.read d.drawing := (Drawing.read_drawing legible).symm
        _ = Drawing.read d'.drawing := congrArg Drawing.read h
        _ = Drawing.rows [] d'.preorder := Drawing.read_drawing legible'
    exact Drawing.bare_eq_of_rows hrows
  · intro h
    rw [← drawing_bare d, h, drawing_bare]

/-- Names that look like rails and branches, and files that differ in their content only. -/
theorem drawing_eq_iff_branches :
    let d := ofList [("│   ├── a", .directory (ofList [("    └── b", .file "1")])),
      ("└── ", .file "")]
    let d' := ofList [("│   ├── a", .directory (ofList [("    └── b", .file "2")])),
      ("└── ", .file "")]
    d.allNames Drawing.isLegible = true ∧ d'.allNames Drawing.isLegible = true ∧
      d.bare = d'.bare ∧ d.drawing = d'.drawing := by
  intro d d'
  have legible : d.allNames Drawing.isLegible = true := by decide
  have legible' : d'.allNames Drawing.isLegible = true := by decide
  have hshape : d.bare = d'.bare := rfl
  exact ⟨legible, legible', hshape, (drawing_eq_iff legible legible').2 hshape⟩

end Directory

end DriveShell
