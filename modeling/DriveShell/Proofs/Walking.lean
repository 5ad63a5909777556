import DriveShell.Tree.Directory

/-!
# Walking down a tree

`Directory.find?` gives the node at the end of a list of names.  Most statements
about a tree are about the directories on the way there, so this module adds the
walk that stops at directories only: `at?` leads to the directory itself for no
names, and walks compose (`at?_append`).  `find?` is a walk and one look-up at its
end (`find?_append`).

`updateAt` changes the directory at the end of a walk.  There the change is seen
(`at?_updateAt`).  Elsewhere a directory stays a directory as long as the change
keeps it (`isSome_at?_updateAt`), because a directory on the way is replaced by a
directory and all others are not touched.
-/

namespace DriveShell

namespace Directory

/-! ## Inserting and erasing, entry by entry -/

@[simp] theorem get?_empty (name : Name) : empty.get? name = none := rfl

@[simp] theorem get?_entry (n name : Name) (node : Node) (rest : Directory) :
    (entry n node rest).get? name = if n = name then some node else rest.get? name := rfl

@[simp] theorem insert_empty (name : Name) (node : Node) :
    empty.insert name node = .entry name node .empty := rfl

theorem insert_entry (n name : Name) (old node : Node) (rest : Directory) :
    (entry n old rest).insert name node =
      if n = name then .entry n node rest else .entry n old (rest.insert name node) := by
  rw [insert, exchange]
  split
  next => rfl
  next => rfl

@[simp] theorem erase_empty (name : Name) : empty.erase name = .empty := rfl

theorem erase_entry (n name : Name) (node : Node) (rest : Directory) :
    (entry n node rest).erase name =
      if n = name then rest else .entry n node (rest.erase name) := by
  rw [erase, extract]
  split
  next => rfl
  next => rfl

theorem get?_insert (d : Directory) (name other : Name) (node : Node) :
    (d.insert name node).get? other = if name = other then some node else d.get? other := by
  induction d with
  | empty => simp
  | entry n old rest ih =>
    rw [insert_entry]
    by_cases hn : n = name
    · subst hn
      by_cases ho : n = other
      · simp [ho]
      · simp [ho]
    · rw [if_neg hn, get?_entry, get?_entry, ih]
      by_cases ho : n = other
      · subst ho
        simp [Ne.symm hn]
      · simp [ho]

@[simp] theorem get?_insert_self (d : Directory) (name : Name) (node : Node) :
    (d.insert name node).get? name = some node := by
  rw [get?_insert, if_pos rfl]

theorem get?_insert_of_ne (d : Directory) {name other : Name} (h : name ≠ other) (node : Node) :
    (d.insert name node).get? other = d.get? other := by
  rw [get?_insert, if_neg h]

/-- A second node under the same name takes the place of the first. -/
theorem insert_insert (d : Directory) (name : Name) (node other : Node) :
    (d.insert name node).insert name other = d.insert name other := by
  induction d with
  | empty => rw [insert_empty, insert_entry, if_pos rfl, insert_empty]
  | entry n old rest ih =>
    by_cases hn : n = name
    · rw [insert_entry, insert_entry, if_pos hn, if_pos hn, insert_entry, if_pos hn]
    · rw [insert_entry, insert_entry, if_neg hn, if_neg hn, insert_entry, if_neg hn, ih]

/-- The other names keep their nodes.  Nothing is said of the erased name, under which
a second entry could come to light. -/
theorem get?_erase_of_ne (d : Directory) {name other : Name} (h : name ≠ other) :
    (d.erase name).get? other = d.get? other := by
  induction d with
  | empty => rfl
  | entry n node rest ih =>
    rw [erase_entry]
    by_cases hn : n = name
    · subst hn
      rw [if_pos rfl, get?_entry, if_neg h]
    · rw [if_neg hn, get?_entry, get?_entry, ih]

theorem mem_of_get? {d : Directory} {name : Name} {node : Node} (h : d.get? name = some node) :
    (name, node) ∈ d.toList := by
  induction d with
  | empty => cases h
  | entry n other rest ih =>
    rw [get?_entry] at h
    rw [toList_entry]
    by_cases hn : n = name
    · rw [if_pos hn, Option.some.injEq] at h
      rw [hn, h]
      exact List.mem_cons_self
    · rw [if_neg hn] at h
      exact List.mem_cons_of_mem _ (ih h)

theorem eq_or_mem_of_mem_insert {d : Directory} {name : Name} {node : Node} {entry : Name × Node}
    (h : entry ∈ (d.insert name node).toList) : entry = (name, node) ∨ entry ∈ d.toList := by
  induction d with
  | empty => exact Or.inl (List.mem_singleton.1 h)
  | entry n old rest ih =>
    rw [insert_entry] at h
    by_cases hn : n = name
    · subst hn
      rw [if_pos rfl, toList_entry, List.mem_cons] at h
      exact h.imp_right (List.mem_cons_of_mem _)
    · rw [if_neg hn, toList_entry, List.mem_cons] at h
      rcases h with rfl | h
      · exact Or.inr List.mem_cons_self
      · exact (ih h).imp_right (List.mem_cons_of_mem _)

theorem mem_of_mem_erase {d : Directory} {name : Name} {entry : Name × Node}
    (h : entry ∈ (d.erase name).toList) : entry ∈ d.toList := by
  induction d with
  | empty => exact h
  | entry n node rest ih =>
    rw [erase_entry] at h
    by_cases hn : n = name
    · rw [if_pos hn] at h
      exact List.mem_cons_of_mem _ h
    · rw [if_neg hn, toList_entry, List.mem_cons] at h
      rcases h with rfl | h
      · exact List.mem_cons_self
      · exact List.mem_cons_of_mem _ (ih h)

/-! ## The directory at the end of a walk -/

/-- The directory under a name, if one stands there. -/
def sub? (d : Directory) (name : Name) : Option Directory := (d.get? name).bind Node.children?

theorem sub?_eq_some {d children : Directory} {name : Name} :
    d.sub? name = some children ↔ d.get? name = some (.directory children) := by
  rw [sub?]
  cases d.get? name with
  | none => simp
  | some node =>
    cases node with
    | file content => simp [Node.children?]
    | directory c => simp [Node.children?]

theorem sub?_eq_none {d : Directory} {name : Name}
    (h : (d.get? name).any Node.isDirectory = false) : d.sub? name = none := by
  refine Option.eq_none_iff_forall_ne_some.2 fun children hchildren => ?_
  rw [sub?_eq_some.1 hchildren] at h
  cases h

theorem sub?_insert_of_ne (d : Directory) {name other : Name} (h : name ≠ other) (node : Node) :
    (d.insert name node).sub? other = d.sub? other := by
  rw [sub?, get?_insert_of_ne d h, sub?]

theorem sub?_erase_of_ne (d : Directory) {name other : Name} (h : name ≠ other) :
    (d.erase name).sub? other = d.sub? other := by
  rw [sub?, get?_erase_of_ne d h, sub?]

/-- The directory that a list of names leads to.  No names lead to the directory
itself. -/
def at? (d : Directory) : List Name → Option Directory
  | [] => some d
  | name :: names => (d.sub? name).bind (·.at? names)

@[simp] theorem at?_nil (d : Directory) : d.at? [] = some d := rfl

theorem at?_cons (d : Directory) (name : Name) (names : List Name) :
    d.at? (name :: names) = (d.sub? name).bind (·.at? names) := rfl

theorem at?_singleton (d : Directory) (name : Name) : d.at? [name] = d.sub? name := by
  rw [at?_cons]
  exact Option.bind_fun_some _

/-- Walks compose. -/
theorem at?_append (d : Directory) (names more : List Name) :
    d.at? (names ++ more) = (d.at? names).bind (·.at? more) := by
  induction names generalizing d with
  | nil => rfl
  | cons name names ih =>
    rw [List.cons_append, at?_cons, at?_cons, Option.bind_assoc]
    exact Option.bind_congr fun c _ => ih c

theorem find?_cons (d : Directory) (name : Name) {names : List Name} (h : names ≠ []) :
    d.find? (name :: names) = (d.sub? name).bind (·.find? names) := by
  cases names with
  | nil => exact absurd rfl h
  | cons below names =>
    rw [find?, sub?]
    cases d.get? name with
    | none => rfl
    | some node =>
      cases node with
      | file content => rfl
      | directory children => rfl

/-- The node at the end of two walks is found from the directory between them. -/
theorem find?_append (d : Directory) (names : List Name) {more : List Name} (h : more ≠ []) :
    d.find? (names ++ more) = (d.at? names).bind (·.find? more) := by
  induction names generalizing d with
  | nil => rfl
  | cons name names ih =>
    rw [List.cons_append, find?_cons d name (by simp [h]), at?_cons, Option.bind_assoc]
    exact Option.bind_congr fun c _ => ih c

/-- A walk of at least one step ends at a directory when the node there is one. -/
theorem children?_find? (d : Directory) {names : List Name} (h : names ≠ []) :
    (d.find? names).bind Node.children? = d.at? names := by
  rw [← List.dropLast_concat_getLast h, find?_append d _ (List.cons_ne_nil _ []), at?_append,
    Option.bind_assoc]
  exact Option.bind_congr fun c _ => (at?_singleton c _).symm

/-! ## Changing the directory at the end of a walk -/

theorem updateAt_cons_some {d children : Directory} {name : Name} (h : d.sub? name = some children)
    (change : Directory → Directory) (names : List Name) :
    d.updateAt change (name :: names) =
      d.insert name (.directory (children.updateAt change names)) := by
  rw [updateAt, sub?_eq_some.1 h]

theorem updateAt_cons_none {d : Directory} {name : Name} (h : d.sub? name = none)
    (change : Directory → Directory) (names : List Name) :
    d.updateAt change (name :: names) = d := by
  rw [updateAt]
  split
  next c hnode =>
    rw [sub?_eq_some.2 hnode] at h
    cases h
  next => rfl

/-- A change at the end of two walks is a change, at the end of the first, along the second. -/
theorem updateAt_append (d : Directory) (change : Directory → Directory) (names more : List Name) :
    d.updateAt change (names ++ more) = d.updateAt (·.updateAt change more) names := by
  induction names generalizing d with
  | nil => rfl
  | cons name names ih =>
    rw [List.cons_append]
    cases h : d.sub? name with
    | none => rw [updateAt_cons_none h, updateAt_cons_none h]
    | some children => rw [updateAt_cons_some h, updateAt_cons_some h, ih]

/-- Two changes at the same place are one. -/
theorem updateAt_updateAt (d : Directory) (first second : Directory → Directory)
    (names : List Name) :
    (d.updateAt first names).updateAt second names = d.updateAt (second ∘ first) names := by
  induction names generalizing d with
  | nil => rfl
  | cons name names ih =>
    cases h : d.sub? name with
    | none => rw [updateAt_cons_none h, updateAt_cons_none h, updateAt_cons_none h]
    | some children =>
      rw [updateAt_cons_some h, updateAt_cons_some h,
        updateAt_cons_some (sub?_eq_some.2 (get?_insert_self d name _)), ih, insert_insert]

/-- Where the walk ends the change is seen. -/
theorem at?_updateAt (d : Directory) (change : Directory → Directory) (names : List Name) :
    (d.updateAt change names).at? names = (d.at? names).map change := by
  induction names generalizing d with
  | nil => rfl
  | cons name names ih =>
    rw [at?_cons d]
    cases h : d.sub? name with
    | none =>
      rw [updateAt_cons_none h, at?_cons, h]
      rfl
    | some children =>
      rw [updateAt_cons_some h, at?_cons, sub?_eq_some.2 (get?_insert_self d name _)]
      exact ih children

/-- A directory stays a directory if the change keeps it, wherever the walk to it goes on
from the changed directory. -/
theorem isSome_at?_updateAt {d : Directory} {change : Directory → Directory}
    {names path : List Name} (h : (d.at? path).isSome)
    (keep : ∀ c rest, d.at? names = some c → path = names ++ rest → (c.at? rest).isSome →
      ((change c).at? rest).isSome) :
    ((d.updateAt change names).at? path).isSome := by
  -- The two walks part at the first name in which they differ, and below it nothing changes.
  induction names generalizing d path with
  | nil => exact keep d path rfl rfl h
  | cons name names ih =>
    cases hc : d.sub? name with
    | none => rwa [updateAt_cons_none hc]
    | some children =>
      rw [updateAt_cons_some hc]
      cases path with
      | nil => rfl
      | cons first path =>
        rw [at?_cons] at h ⊢
        by_cases hname : name = first
        · subst hname
          rw [hc] at h
          rw [sub?_eq_some.2 (get?_insert_self d name _)]
          refine ih h fun c rest hat hpath => keep c rest ?_ (by rw [hpath]; rfl)
          rw [at?_cons, hc]
          exact hat
        · rwa [sub?_insert_of_ne d hname]

/-- A walk is not cut off by what is put where no directory was. -/
theorem isSome_at?_insert {d : Directory} {name : Name} {names : List Name}
    (h : (d.at? names).isSome) (free : d.sub? name = none) (node : Node) :
    ((d.insert name node).at? names).isSome := by
  cases names with
  | nil => rfl
  | cons first names =>
    rw [at?_cons] at h ⊢
    have hname : name ≠ first := by
      rintro rfl
      rw [free] at h
      cases h
    rwa [sub?_insert_of_ne d hname]

/-- A walk is not cut off by erasing a name that it does not begin with. -/
theorem isSome_at?_erase {d : Directory} {name : Name} {names : List Name}
    (h : (d.at? names).isSome) (other : names.head? ≠ some name) :
    ((d.erase name).at? names).isSome := by
  cases names with
  | nil => rfl
  | cons first names =>
    rw [at?_cons] at h ⊢
    have hname : name ≠ first := by
      rintro rfl
      exact other rfl
    rwa [sub?_erase_of_ne d hname]

end Directory

end DriveShell
