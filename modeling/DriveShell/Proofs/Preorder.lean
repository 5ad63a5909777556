import DriveShell.Proofs.Observations

/-!
# Trees in pre-order

The nodes below a directory come in pre-order: a node, then what is below it, then the nodes after
it.  Each is given with the names that lead to it.  Among distinct names these are exactly the nodes
that a look-up finds (`mem_preorder_iff`), and no two of them have the same names
(`nodup_preorder`).

Both are inductions over the whole tree (`Directory.nested`).  Along the entries of one directory
the names in front tell the nodes below one entry from those below another.  One step down the name
of the entry is put in front of all that is there.
-/

namespace DriveShell

/-- Nodes with the names that lead to them from one directory further up. -/
def Directory.under (name : Name) (nodes : List (List Name × Node)) : List (List Name × Node) :=
  nodes.map fun (names, node) => (name :: names, node)

mutual

/-- The nodes below a node in pre-order.  There are none below a file. -/
def Node.preorder : Node → List (List Name × Node)
  | .file _ => []
  | .directory children => children.preorder

/-- The nodes below a directory in pre-order, each with the names that lead to it. -/
def Directory.preorder : Directory → List (List Name × Node)
  | .empty => []
  | .entry name node rest =>
    ([name], node) :: (Directory.under name node.preorder ++ rest.preorder)

end

namespace Directory

variable {d : Directory} {names : List Name} {name : Name} {node : Node}

/-! ## The nodes that a look-up finds -/

theorem mem_under {nodes : List (List Name × Node)} :
    (names, node) ∈ under name nodes ↔ ∃ below, names = name :: below ∧ (below, node) ∈ nodes := by
  rw [under, List.mem_map]
  constructor
  · rintro ⟨⟨below, _⟩, hmem, heq⟩
    cases heq
    exact ⟨below, rfl, hmem⟩
  · rintro ⟨below, rfl, hmem⟩
    exact ⟨(below, node), hmem, rfl⟩

theorem mem_preorder_entry {other : Node} {rest : Directory} :
    (names, node) ∈ (entry name other rest).preorder ↔
      names = [name] ∧ node = other ∨
      (∃ below, names = name :: below ∧ (below, node) ∈ other.preorder) ∨
      (names, node) ∈ rest.preorder := by
  rw [preorder, List.mem_cons, List.mem_append, mem_under, Prod.mk.injEq]

/-- The names that lead to a node begin with a name of the directory. -/
theorem cons_of_mem_preorder (h : (names, node) ∈ d.preorder) :
    ∃ first below, names = first :: below ∧ first ∈ d.names := by
  induction d with
  | empty => cases h
  | entry name other rest ih =>
    rcases mem_preorder_entry.1 h with ⟨rfl, -⟩ | ⟨below, rfl, -⟩ | hrest
    · exact ⟨name, [], rfl, List.mem_cons_self⟩
    · exact ⟨name, below, rfl, List.mem_cons_self⟩
    · obtain ⟨first, below, hnames, hfirst⟩ := ih hrest
      exact ⟨first, below, hnames, List.mem_cons_of_mem _ hfirst⟩

theorem nil_notMem_preorder : ([], node) ∉ d.preorder := by
  intro h
  obtain ⟨first, below, hnames, -⟩ := cons_of_mem_preorder h
  cases hnames

end Directory

theorem Node.nil_notMem_preorder (node : Node) {found : Node} : ([], found) ∉ node.preorder := by
  intro h
  cases node with
  | file content => cases h
  | directory children => exact Directory.nil_notMem_preorder h

namespace Directory

variable {d : Directory} {names : List Name} {name : Name} {node : Node}

theorem find?_empty (names : List Name) : empty.find? names = none := by
  cases names with
  | nil => rfl
  | cons first below => exact find?_cons_of_free rfl below

theorem find?_entry_of_ne {first : Name} (h : name ≠ first) (node : Node) (rest : Directory)
    (below : List Name) :
    (entry name node rest).find? (first :: below) = rest.find? (first :: below) :=
  find?_cons_of_get? (by rw [get?_entry, if_neg h]) below

/-- What is found by the first name is its node, or is found below that. -/
theorem find?_entry_self (name : Name) (node : Node) (rest : Directory) (below : List Name) :
    (entry name node rest).find? (name :: below) =
      if below = [] then some node else node.children?.bind (·.find? below) := by
  by_cases h : below = []
  · rw [if_pos h, h, find?, get?_entry, if_pos rfl]
  · rw [if_neg h, find?_cons _ _ h, sub?, get?_entry, if_pos rfl]
    rfl

/-- Among distinct names the nodes in pre-order are those that a look-up finds. -/
theorem mem_preorder_iff (h : d.distinct = true) :
    (names, node) ∈ d.preorder ↔ d.find? names = some node := by
  induction d using nested generalizing names with
  | empty => simp [preorder, find?_empty]
  | entry name other rest ihbelow ihrest =>
    rw [distinct, Bool.and_eq_true, Bool.and_eq_true, Bool.not_eq_true', contains,
      Option.isSome_eq_false_iff, Option.isNone_iff_eq_none] at h
    obtain ⟨⟨hfree, hother⟩, hrest⟩ := h
    rw [mem_preorder_entry, ihrest hrest]
    cases names with
    | nil => simp [find?]
    | cons first below =>
      by_cases hfirst : name = first
      · subst hfirst
        have hbelow : (below, node) ∈ other.preorder ↔
            other.children?.bind (·.find? below) = some node := by
          cases other with
          | file content => simp [Node.preorder, Node.children?]
          | directory children => exact ihbelow children rfl hother
        rw [find?_entry_self, find?_cons_of_free hfree]
        -- The node of the first entry itself, or one below it.
        by_cases hnil : below = []
        · simp [hnil, other.nil_notMem_preorder, eq_comm]
        · simp [hnil, hbelow]
      · rw [find?_entry_of_ne hfirst]
        simp [Ne.symm hfirst]

/-! ## No repetitions -/

theorem map_fst_under (name : Name) (nodes : List (List Name × Node)) :
    (under name nodes).map Prod.fst = (nodes.map Prod.fst).map (name :: ·) := by
  rw [under, List.map_map, List.map_map]
  rfl

/-- Among distinct names no two nodes are led to by the same names. -/
theorem nodup_preorder (h : d.distinct = true) : (d.preorder.map Prod.fst).Nodup := by
  induction d using nested with
  | empty => exact List.nodup_nil
  | entry name node rest ihbelow ihrest =>
    rw [distinct, Bool.and_eq_true, Bool.and_eq_true, Bool.not_eq_true',
      contains_eq_false_iff] at h
    obtain ⟨⟨hname, hnode⟩, hrest⟩ := h
    have hbelow : (node.preorder.map Prod.fst).Nodup := by
      cases node with
      | file content => exact List.nodup_nil
      | directory children => exact ihbelow children rfl hnode
    have hother : ∀ below, name :: below ∉ rest.preorder.map Prod.fst := by
      intro below hmem
      obtain ⟨⟨_, node⟩, hmem, rfl⟩ := List.mem_map.1 hmem
      obtain ⟨first, more, hnames, hfirst⟩ := cons_of_mem_preorder hmem
      cases hnames
      exact hname hfirst
    rw [preorder, List.map_cons, List.map_append, map_fst_under, List.nodup_cons, List.mem_append,
      not_or, List.nodup_append]
    refine ⟨⟨fun hmem => ?_, hother []⟩, hbelow.map List.cons_injective, ihrest hrest, ?_⟩
    · obtain ⟨below, hmem, hcons⟩ := List.mem_map.1 hmem
      cases hcons
      obtain ⟨⟨_, found⟩, hmem, hnil⟩ := List.mem_map.1 hmem
      cases hnil
      exact node.nil_notMem_preorder hmem
    · rintro _ hmem _ hmem' rfl
      obtain ⟨below, -, rfl⟩ := List.mem_map.1 hmem
      exact hother below hmem'

end Directory

end DriveShell
