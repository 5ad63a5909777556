import DriveShell.Proofs.Preorder
import DriveShell.Proofs.ValidNames

/-!
# Drawings read back

A drawing is text, and all that it says of the tree is in its lines: how far a line is indented,
what stands behind its branch, and whether it ends in a slash.  `Drawing.read` rebuilds from these
the names that lead to each node.  A line that is indented by some rails goes on from as many of
the names of the line before.

The rails and the branches can be told apart, whatever the names are: a rail has blanks and bars
only, and a branch begins with neither.  So a name may look like any part of a drawing.  It must
not hold a line break, which would end the line, or a slash, which is taken for that of a
directory.

Reading goes from line to line and only knows the names of the line before.  The lines of a
directory begin where those of its own line end, and they leave names that still begin with those
of the directory.  This is what the induction over the tree carries (`rebuild_linesBelow`).
-/

namespace DriveShell

namespace Drawing

/-! ## Reading -/

/-- Whether a character is one of those that rails are made of. -/
def isRail (c : Char) : Bool := c = ' ' || c = '│'

/-- The number of rails in front of a line. -/
def depth (line : Text) : Nat := (line.takeWhile isRail).length / 4

/-- What stands behind the branch of a line. -/
def label (line : Text) : Text := (line.dropWhile isRail).drop 4

/-- Whether a line ends in a slash. -/
def endsInSlash (line : Text) : Bool := line.getLast? = some '/'

/-- The name in a line. -/
def name (line : Text) : Name :=
  if endsInSlash line then (label line).dropLast else label line

/-- The names that lead to the node of each line, and whether the line ends in a slash.  A line
goes on from as many of the names of the line before as it has rails. -/
def rebuild (current : List Name) : List Text → List (List Name × Bool)
  | [] => []
  | line :: lines =>
    let names := current.take (depth line) ++ [name line]
    (names, endsInSlash line) :: rebuild names lines

/-- The lines of a text in which each line ends. -/
def linesOf (text : Text) : List Text := (Text.split '\n' text).dropLast

/-- The names and the slashes that a drawing gives, line by line. -/
def read (text : Text) : List (List Name × Bool) := rebuild [] (linesOf text)

/-! ## Lines -/

/-- Whether a name can be read off a line. -/
def isLegible (name : Name) : Bool := !name.contains '\n' && !name.contains '/'

/-- The rails in front of the lines at some depth. -/
structure Rails (rails : Text) (depth : Nat) : Prop where
  made : ∀ c ∈ rails, isRail c = true
  width : rails.length = 4 * depth

namespace Rails

variable {rails : Text} {depth : Nat}

theorem nil : Rails [] 0 := ⟨List.forall_mem_nil _, rfl⟩

theorem further (h : Rails rails depth) (last : Bool) :
    Rails (rails ++ rail last) (depth + 1) where
  made := by
    refine List.forall_mem_append.2 ⟨h.made, ?_⟩
    cases last with
    | false => exact List.all_eq_true.1 rfl
    | true => exact List.all_eq_true.1 rfl
  width := by
    have hrail : (rail last).length = 4 := by
      cases last with
      | false => rfl
      | true => rfl
    rw [List.length_append, h.width, hrail]
    omega

theorem notMem (h : Rails rails depth) {c : Char} (hc : isRail c = false) : c ∉ rails := by
  intro hmem
  rw [h.made c hmem] at hc
  cases hc

end Rails

section Lines

variable {rails : Text} {above : Nat}

theorem branch_eq (last : Bool) :
    ∃ corner, isRail corner = false ∧ branch last = corner :: "── ".toList := by
  cases last with
  | false => exact ⟨'├', by decide, by decide⟩
  | true => exact ⟨'└', by decide, by decide⟩

theorem depth_line (h : Rails rails above) (last : Bool) (t : Text) :
    depth (rails ++ branch last ++ t) = above := by
  obtain ⟨corner, hcorner, hbranch⟩ := branch_eq last
  rw [depth, hbranch, List.append_assoc, List.takeWhile_append_of_pos h.made, List.cons_append,
    List.takeWhile_cons_of_neg (by simp [hcorner]), List.append_nil, h.width,
    Nat.mul_div_cancel_left _ (by decide)]

theorem label_line (h : Rails rails above) (last : Bool) (t : Text) :
    label (rails ++ branch last ++ t) = t := by
  obtain ⟨corner, hcorner, hbranch⟩ := branch_eq last
  rw [label, hbranch, List.append_assoc, List.dropWhile_append_of_pos h.made, List.cons_append,
    List.dropWhile_cons_of_neg (by simp [hcorner])]
  rfl

theorem notMem_branch (last : Bool) : '\n' ∉ branch last ∧ '/' ∉ branch last := by
  cases last with
  | false => decide
  | true => decide

theorem slash_notMem {name : Name} (h : isLegible name = true) : '/' ∉ name := by
  simpa using (Bool.and_eq_true_iff.1 h).2

theorem newline_notMem {name : Name} (h : isLegible name = true) : '\n' ∉ name := by
  simpa using (Bool.and_eq_true_iff.1 h).1

/-- A valid name without a line break can be read off a line. -/
theorem isLegible_of_valid {name : Name}
    (h : (Path.isValidName name && !name.contains '\n') = true) : isLegible name = true := by
  simp only [Path.isValidName, Path.hasReserved, Bool.and_eq_true, Bool.not_eq_true',
    Bool.or_eq_false_iff] at h
  rw [isLegible, h.2, h.1.2.1.2]
  rfl

theorem endsInSlash_of_notMem {line : Text} (h : '/' ∉ line) : endsInSlash line = false :=
  decide_eq_false fun hlast => h (List.mem_of_getLast? hlast)

variable {before current : List Name} {name : Name}

/-- A line of a file gives its name after those of the directory. -/
theorem rebuild_file (h : Rails rails before.length) (hcurrent : before <+: current)
    (legible : isLegible name = true) (last : Bool) (lines : List Text) :
    rebuild current ((rails ++ branch last ++ name) :: lines) =
      (before ++ [name], false) :: rebuild (before ++ [name]) lines := by
  have hplain : '/' ∉ rails ++ branch last ++ name := by
    simp [h.notMem (c := '/') (by decide), (notMem_branch last).2, slash_notMem legible]
  rw [rebuild, depth_line h, ← List.prefix_iff_eq_take.1 hcurrent, Drawing.name,
    endsInSlash_of_notMem hplain, label_line h]
  rfl

/-- A line of a directory gives its name and the slash. -/
theorem rebuild_directory (h : Rails rails before.length) (hcurrent : before <+: current)
    (name : Name) (last : Bool) (lines : List Text) :
    rebuild current ((rails ++ branch last ++ name ++ ['/']) :: lines) =
      (before ++ [name], true) :: rebuild (before ++ [name]) lines := by
  have hslash : endsInSlash (rails ++ branch last ++ (name ++ ['/'])) = true := by
    rw [← List.append_assoc, endsInSlash, List.getLast?_concat]
    rfl
  rw [List.append_assoc (rails ++ branch last), rebuild, depth_line h,
    ← List.prefix_iff_eq_take.1 hcurrent, Drawing.name, hslash, label_line h]
  simp

end Lines

/-! ## Drawings -/

/-- What a drawing gives for some nodes: the names that lead to them after some others, and
whether they are directories. -/
def rows (before : List Name) (nodes : List (List Name × Node)) : List (List Name × Bool) :=
  nodes.map fun (names, node) => (before ++ names, node.isDirectory)

theorem rows_under (before : List Name) (name : Name) (nodes : List (List Name × Node)) :
    rows before (Directory.under name nodes) = rows (before ++ [name]) nodes := by
  rw [rows, Directory.under, List.map_map, rows]
  simp

theorem rows_entry (before : List Name) (name : Name) (node : Node) (rest : Directory) :
    rows before (Directory.entry name node rest).preorder =
      (before ++ [name], node.isDirectory) ::
        (rows (before ++ [name]) node.preorder ++ rows before rest.preorder) := by
  rw [← rows_under, Directory.preorder, rows, List.map_cons, List.map_append]
  rfl

/-- The lines of a directory give the nodes below it in pre-order.  They are read after a line
whose names begin with those of the directory, and the last of them leaves such names. -/
theorem rebuild_linesBelow (d : Directory) (legible : d.allNames isLegible = true) {rails : Text}
    {before current : List Name} (h : Rails rails before.length) (hcurrent : before <+: current) :
    ∃ left, before <+: left ∧ ∀ lines, rebuild current (linesBelow rails d ++ lines) =
      rows before d.preorder ++ rebuild left lines := by
  induction d using Directory.nested generalizing rails before current with
  | empty => exact ⟨current, hcurrent, fun lines => rfl⟩
  | entry name node rest ihbelow ihrest =>
    rw [Directory.allNames, Bool.and_eq_true, Bool.and_eq_true] at legible
    obtain ⟨⟨hname, hnode⟩, hrest⟩ := legible
    cases node with
    | file content =>
      obtain ⟨left, hleft, hlines⟩ := ihrest hrest h (List.prefix_append before [name])
      refine ⟨left, hleft, fun lines => ?_⟩
      rw [linesBelow, List.cons_append, rebuild_file h hcurrent hname, hlines, rows_entry]
      rfl
    | directory children =>
      have hdeeper : Rails (rails ++ rail rest.isEmpty) (before ++ [name]).length := by
        rw [List.length_append]
        exact h.further _
      obtain ⟨inside, hinside, hbelow⟩ := ihbelow children rfl hnode hdeeper List.prefix_rfl
      obtain ⟨left, hleft, hlines⟩ :=
        ihrest hrest h ((List.prefix_append before [name]).trans hinside)
      refine ⟨left, hleft, fun lines => ?_⟩
      rw [linesBelow, List.cons_append, rebuild_directory h hcurrent, List.append_assoc, hbelow,
        hlines, rows_entry, List.cons_append, List.append_assoc]
      rfl

theorem newline_notMem_linesBelow (d : Directory) (legible : d.allNames isLegible = true)
    {rails : Text} {above : Nat} (h : Rails rails above) :
    ∀ line ∈ linesBelow rails d, '\n' ∉ line := by
  induction d using Directory.nested generalizing rails above with
  | empty => exact List.forall_mem_nil _
  | entry name node rest ihbelow ihrest =>
    rw [Directory.allNames, Bool.and_eq_true, Bool.and_eq_true] at legible
    obtain ⟨⟨hname, hnode⟩, hrest⟩ := legible
    have hline : '\n' ∉ rails ++ branch rest.isEmpty ++ name := by
      simp [h.notMem (c := '\n') (by decide), (notMem_branch _).1, newline_notMem hname]
    cases node with
    | file content => exact List.forall_mem_cons.2 ⟨hline, ihrest hrest h⟩
    | directory children =>
      refine List.forall_mem_cons.2 ⟨?_, List.forall_mem_append.2
        ⟨ihbelow children rfl hnode (h.further _), ihrest hrest h⟩⟩
      rw [List.mem_append]
      exact not_or.2 ⟨hline, by decide⟩

/-- A text that is made of lines is cut into these. -/
theorem linesOf_flatMap {lines : List Text} (h : ∀ line ∈ lines, '\n' ∉ line) :
    linesOf (lines.flatMap (· ++ ['\n'])) = lines := by
  induction lines with
  | nil => rfl
  | cons line lines ih =>
    obtain ⟨hline, hlines⟩ := List.forall_mem_cons.1 h
    rw [List.flatMap_cons, List.append_assoc, List.singleton_append, linesOf, Text.split_append,
      Text.split_plain hline, List.singleton_append,
      List.dropLast_cons_of_ne_nil (Text.split_ne_nil _ _), ← linesOf, ih hlines]

/-- A drawing is read back as the nodes below the directory in pre-order. -/
theorem read_drawing {d : Directory} (legible : d.allNames isLegible = true) :
    read d.drawing = d.preorder.map fun (names, node) => (names, node.isDirectory) := by
  have hlines := newline_notMem_linesBelow d legible Rails.nil
  have hrails : Rails [] ([] : List Name).length := Rails.nil
  obtain ⟨left, -, hrebuild⟩ := rebuild_linesBelow d legible hrails List.prefix_rfl
  rw [read, Directory.drawing, Directory.drawingLines, linesOf_flatMap hlines]
  simpa [rows, rebuild] using hrebuild []

end Drawing

end DriveShell
