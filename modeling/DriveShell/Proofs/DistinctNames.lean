import Mathlib.Data.List.Induction
import Mathlib.Data.List.Nodup
import DriveShell.Proofs.Changes
import DriveShell.Proofs.Walking

/-!
# Distinct names

A directory made by insertions never has two entries of one name: a name that is taken
keeps its entry, and only a new one is added.  `Directory.distinct` tests this at every
depth.  A sequence of entries as such may have repetitions, but those that pass the test
are exactly those that insertions build (`built_iff_distinct`).

Insertion, erasing and changes further down keep the names distinct, so they are distinct
after any calls from a forest that was built by insertions (`distinct_attempts`).  This is
what makes a removed name absent: no second entry comes to light.
-/

namespace DriveShell

/-! ## A test of all directories in a tree -/

mutual

/-- Whether in every directory below a node no two entries have one name. -/
def Node.distinct : Node → Bool
  | .file _ => true
  | .directory children => children.distinct

/-- Whether in a directory and every directory below it no two entries have one name. -/
def Directory.distinct : Directory → Bool
  | .empty => true
  | .entry name node rest => !rest.contains name && node.distinct && rest.distinct

end

namespace Directory

variable {d : Directory} {name : Name} {node : Node}

/-! ## The names of a directory -/

@[simp] theorem names_empty : names .empty = [] := rfl

@[simp] theorem names_entry (name : Name) (node : Node) (rest : Directory) :
    (entry name node rest).names = name :: rest.names := rfl

theorem get?_eq_none_iff : d.get? name = none ↔ name ∉ d.names := by
  induction d with
  | empty => simp
  | entry n node rest ih =>
    by_cases hn : n = name
    · simp [hn]
    · simp [hn, Ne.symm hn, ih]

theorem contains_eq_false_iff : d.contains name = false ↔ name ∉ d.names := by
  rw [contains, ← get?_eq_none_iff, Option.isSome_eq_false_iff, Option.isNone_iff_eq_none]

/-- A new name goes to the end. -/
theorem toList_insert_of_free (free : d.get? name = none) (node : Node) :
    (d.insert name node).toList = d.toList ++ [(name, node)] := by
  induction d with
  | empty => rfl
  | entry n old rest ih =>
    rw [get?_entry] at free
    split at free
    next => cases free
    next hn => rw [insert_entry, if_neg hn, toList_entry, ih free, toList_entry, List.cons_append]

/-- A name that is taken stays where it is. -/
theorem names_insert_of_taken (taken : name ∈ d.names) (node : Node) :
    (d.insert name node).names = d.names := by
  induction d with
  | empty => cases taken
  | entry n old rest ih =>
    rw [insert_entry]
    by_cases hn : n = name
    · rw [if_pos hn, names_entry, names_entry]
    · have hrest : name ∈ rest.names := by simpa [Ne.symm hn] using taken
      rw [if_neg hn, names_entry, names_entry, ih hrest]

theorem names_erase (d : Directory) (name : Name) : (d.erase name).names = d.names.erase name := by
  induction d with
  | empty => rfl
  | entry n node rest ih =>
    rw [erase_entry, names_entry, List.erase_cons]
    by_cases hn : n = name
    · rw [if_pos hn, if_pos (beq_iff_eq.2 hn)]
    · rw [if_neg hn, if_neg (by simpa using hn), names_entry, ih]

theorem nodup_names_insert (h : d.names.Nodup) (name : Name) (node : Node) :
    (d.insert name node).names.Nodup := by
  by_cases taken : name ∈ d.names
  · rwa [names_insert_of_taken taken]
  · rw [names, toList_insert_of_free (get?_eq_none_iff.2 taken), List.map_append]
    exact List.Nodup.append h (List.nodup_singleton _) (by simpa [names] using taken)

/-- Among distinct names an erased one is gone. -/
theorem get?_erase_self (h : d.names.Nodup) (name : Name) : (d.erase name).get? name = none := by
  rw [get?_eq_none_iff, names_erase]
  exact h.not_mem_erase

/-! ## Distinct names at every depth -/

theorem distinct_iff : d.distinct = true ↔
    d.names.Nodup ∧ ∀ entry ∈ d.toList, entry.2.distinct = true := by
  induction d with
  | empty => simp [distinct]
  | entry name node rest ih =>
    simp only [distinct, Bool.and_eq_true, Bool.not_eq_true', contains_eq_false_iff, ih,
      names_entry, List.nodup_cons, toList_entry, List.forall_mem_cons]
    exact ⟨fun ⟨⟨hname, hnode⟩, hnames, hrest⟩ => ⟨⟨hname, hnames⟩, hnode, hrest⟩,
      fun ⟨⟨hname, hnames⟩, hnode, hrest⟩ => ⟨⟨hname, hnode⟩, hnames, hrest⟩⟩

theorem distinct_insert (h : d.distinct = true) (name : Name) (hnode : node.distinct = true) :
    (d.insert name node).distinct = true := by
  obtain ⟨hnames, hnodes⟩ := distinct_iff.1 h
  refine distinct_iff.2 ⟨nodup_names_insert hnames name node, fun entry hentry => ?_⟩
  rcases eq_or_mem_of_mem_insert hentry with rfl | hold
  · exact hnode
  · exact hnodes entry hold

theorem distinct_erase (h : d.distinct = true) (name : Name) : (d.erase name).distinct = true := by
  obtain ⟨hnames, hnodes⟩ := distinct_iff.1 h
  refine distinct_iff.2 ⟨?_, fun entry hentry => hnodes entry (mem_of_mem_erase hentry)⟩
  rw [names_erase]
  exact hnames.erase name

theorem distinct_sub? (h : d.distinct = true) {children : Directory}
    (hchildren : d.sub? name = some children) : children.distinct = true :=
  (distinct_iff.1 h).2 _ (mem_of_get? (sub?_eq_some.1 hchildren))

theorem distinct_at? (h : d.distinct = true) {names : List Name} {last : Directory}
    (hlast : d.at? names = some last) : last.distinct = true := by
  induction names generalizing d with
  | nil =>
    cases hlast
    exact h
  | cons name names ih =>
    rw [at?_cons, Option.bind_eq_some_iff] at hlast
    obtain ⟨children, hchildren, hlast⟩ := hlast
    exact ih (distinct_sub? h hchildren) hlast

theorem distinct_updateAt (h : d.distinct = true) {change : Directory → Directory}
    (keep : ∀ c, c.distinct = true → (change c).distinct = true) (names : List Name) :
    (d.updateAt change names).distinct = true := by
  induction names generalizing d with
  | nil => exact keep d h
  | cons name names ih =>
    cases hc : d.sub? name with
    | none => rwa [updateAt_cons_none hc]
    | some children =>
      rw [updateAt_cons_some hc]
      exact distinct_insert h name (ih (distinct_sub? h hc))

/-! ## Directories built by insertions -/

/-- A directory that insertions build, from files and from directories built before. -/
inductive Built : Directory → Prop
  | empty : Built .empty
  | file {d : Directory} (name : Name) (content : Text) :
    Built d → Built (d.insert name (.file content))
  | directory {d children : Directory} (name : Name) :
    Built d → Built children → Built (d.insert name (.directory children))

theorem Built.distinct (h : d.Built) : d.distinct = true := by
  induction h with
  | empty => rfl
  | file name content _ ih => exact distinct_insert ih name rfl
  | directory name _ _ ih ihchildren => exact distinct_insert ih name ihchildren

/-- Entries of distinct names come out as they are put in. -/
theorem toList_ofList {entries : List (Name × Node)} (h : (entries.map Prod.fst).Nodup) :
    (ofList entries).toList = entries := by
  induction entries using List.reverseRecOn with
  | nil => rfl
  | append_singleton entries entry ih =>
    rw [List.map_append, List.nodup_append] at h
    obtain ⟨hentries, -, hnew⟩ := h
    have hlist := ih hentries
    have hfree : (ofList entries).get? entry.1 = none := by
      rw [get?_eq_none_iff, names, hlist]
      exact fun hmem => hnew _ hmem _ (by simp) rfl
    have hsnoc : ofList (entries ++ [entry]) = (ofList entries).insert entry.1 entry.2 := by
      rw [ofList, List.foldl_append]
      rfl
    rw [hsnoc, toList_insert_of_free hfree, hlist]

theorem toList_injective {c : Directory} (h : d.toList = c.toList) : d = c := by
  induction d generalizing c with
  | empty =>
    cases c with
    | empty => rfl
    | entry name node rest => cases h
  | entry n old rest ih =>
    cases c with
    | empty => cases h
    | entry name node others =>
      rw [toList_entry, toList_entry, List.cons.injEq, Prod.mk.injEq] at h
      obtain ⟨⟨rfl, rfl⟩, hrest⟩ := h
      rw [ih hrest]

end Directory

/-- A node that is a file, or a directory that insertions build. -/
def Node.Built (node : Node) : Prop := ∀ children, node.children? = some children → children.Built

namespace Directory

theorem built_ofList {entries : List (Name × Node)} (h : ∀ entry ∈ entries, entry.2.Built) :
    (ofList entries).Built := by
  induction entries using List.reverseRecOn with
  | nil => exact .empty
  | append_singleton entries entry ih =>
    have hentries : (ofList entries).Built := ih fun e he => h e (List.mem_append_left _ he)
    have hentry : entry.2.Built := h entry (List.mem_append_right _ (List.mem_singleton_self _))
    rw [ofList, List.foldl_append]
    obtain ⟨name, node⟩ := entry
    cases node with
    | file content => exact .file name content hentries
    | directory children => exact .directory name hentries (hentry children rfl)

end Directory

mutual

theorem Node.built_of_distinct : ∀ node : Node, node.distinct = true → node.Built
  | .file _, _ => nofun
  | .directory children, h => by
    have hnames : children.names.Nodup := (Directory.distinct_iff.1 h).1
    have hbuilt := Directory.built_ofList (Directory.nodes_built_of_distinct children h)
    rw [Directory.toList_injective (Directory.toList_ofList hnames)] at hbuilt
    rintro _ ⟨⟩
    exact hbuilt

theorem Directory.nodes_built_of_distinct :
    ∀ d : Directory, d.distinct = true → ∀ entry ∈ d.toList, entry.2.Built
  | .empty, _ => nofun
  | .entry name node rest, h => by
    rw [Directory.distinct, Bool.and_eq_true, Bool.and_eq_true] at h
    exact List.forall_mem_cons.2 ⟨Node.built_of_distinct node h.1.2,
      Directory.nodes_built_of_distinct rest h.2⟩

end

/-- The directories that insertions build are those with distinct names at every depth. -/
theorem Directory.built_iff_distinct {d : Directory} : d.Built ↔ d.distinct = true :=
  ⟨Built.distinct, fun h => Node.built_of_distinct (.directory d) h d rfl⟩

/-! ## Calls keep names distinct -/

namespace FileSystem

variable {fs after : FileSystem}

theorem distinct_perform (h : fs.drives.distinct = true) {change : Change}
    (ok : fs.perform change = .ok after) : after.drives.distinct = true := by
  cases change with
  | enter input =>
    obtain ⟨-, rfl⟩ := enter_eq_ok.1 ok
    exact h
  | make name =>
    obtain ⟨-, -, rfl⟩ := makeDirectory_eq_ok.1 ok
    exact Directory.distinct_updateAt h (fun c hc => Directory.distinct_insert hc name rfl) _
  | remove name recursive =>
    obtain ⟨-, -, rfl⟩ := remove_eq_ok.1 ok
    exact Directory.distinct_updateAt h (fun c hc => Directory.distinct_erase hc name) _
  | write name content =>
    cases ok
    exact Directory.distinct_updateAt h (fun c hc => Directory.distinct_insert hc name rfl) _
  | copy source destination =>
    obtain ⟨content, -, rfl⟩ := copyFile_eq_ok.1 ok
    exact Directory.distinct_updateAt h (fun c hc => Directory.distinct_insert hc destination rfl) _

theorem distinct_attempt (h : fs.drives.distinct = true) (change : Change) :
    (fs.attempt change).drives.distinct = true := by
  rw [attempt]
  split
  next after hafter => exact distinct_perform h hafter
  next => exact h

/-- Over a forest built by insertions all names are distinct, whatever calls are made. -/
theorem distinct_attempts {drives : Directory} {config : Config} {opened : FileSystem}
    (built : drives.Built) (h : start drives config = .ok opened) (changes : List Change) :
    (opened.attempts changes).drives.distinct = true := by
  have hopened : opened.drives.distinct = true := by
    obtain ⟨-, rfl⟩ := start_eq_ok.1 h
    exact built.distinct
  clear h
  induction changes generalizing opened with
  | nil => exact hopened
  | cons change changes ih => exact ih (distinct_attempt hopened change)

end FileSystem

end DriveShell
