import DriveShell.Proofs.Observations

/-!
# The entries of directories

A call changes the entries of the current directory at one name, and it does so in one of three
ways.  A new name goes to the end, a name that is taken stays where it is and has another node, or
its entry is taken out.  All three are read off one lemma, which parts the entries at a name that
is taken (`exists_parts`).

In all other directories the entries stay as they are seen: the same names in the same order, and
under each name a directory as before or a file with the same content.  This is not to say that a
directory on the way to the current one is the same.  Its entry for the next step holds another
tree now.  But that tree is a directory like the one before (`seen_insert`), and the induction along
the way needs no more (`seen_updateAt`).

At the changed name and below it there is no directory before the call, or none after it.  For a
removed name this takes distinct names, as a second entry would come to light otherwise.
-/

namespace DriveShell

namespace Directory

variable {d after : Directory} {name : Name} {node old : Node}

/-! ## Three ways to change the entries -/

/-- A new name with its node has come to the end. -/
def Appended (name : Name) (node : Node) (d after : Directory) : Prop :=
  name ∉ d.names ∧ after.toList = d.toList ++ [(name, node)]

/-- A name has another node in the same place. -/
def Replaced (name : Name) (node : Node) (d after : Directory) : Prop :=
  ∃ before old rest, d.toList = before ++ (name, old) :: rest ∧
    after.toList = before ++ (name, node) :: rest

/-- The entry of a name has gone, and the others are in their order. -/
def Deleted (name : Name) (d after : Directory) : Prop :=
  ∃ before old rest, d.toList = before ++ (name, old) :: rest ∧ after.toList = before ++ rest

/-- The entries before a name that is taken, and those after it. -/
theorem exists_parts (h : d.get? name = some old) :
    ∃ before rest, d.toList = before ++ (name, old) :: rest ∧
      (∀ node, (d.insert name node).toList = before ++ (name, node) :: rest) ∧
      (d.erase name).toList = before ++ rest := by
  induction d with
  | empty => cases h
  | entry n other others ih =>
    rw [get?_entry] at h
    by_cases hn : n = name
    · subst hn
      rw [if_pos rfl, Option.some.injEq] at h
      subst h
      refine ⟨[], others.toList, rfl, fun node => ?_, ?_⟩
      · rw [insert_entry, if_pos rfl]
        rfl
      · rw [erase_entry, if_pos rfl]
        rfl
    · rw [if_neg hn] at h
      obtain ⟨before, rest, hparts, hinsert, herase⟩ := ih h
      refine ⟨(n, other) :: before, rest, ?_, fun node => ?_, ?_⟩
      · rw [toList_entry, hparts, List.cons_append]
      · rw [insert_entry, if_neg hn, toList_entry, hinsert, List.cons_append]
      · rw [erase_entry, if_neg hn, toList_entry, herase, List.cons_append]

theorem appended_insert (free : d.get? name = none) (node : Node) :
    Appended name node d (d.insert name node) :=
  ⟨get?_eq_none_iff.1 free, toList_insert_of_free free node⟩

theorem replaced_insert (taken : d.get? name = some old) (node : Node) :
    Replaced name node d (d.insert name node) := by
  obtain ⟨before, rest, hparts, hinsert, -⟩ := exists_parts taken
  exact ⟨before, old, rest, hparts, hinsert node⟩

theorem deleted_erase (taken : d.get? name = some old) : Deleted name d (d.erase name) := by
  obtain ⟨before, rest, hparts, -, herase⟩ := exists_parts taken
  exact ⟨before, old, rest, hparts, herase⟩

theorem appended_or_replaced_insert (d : Directory) (name : Name) (node : Node) :
    Appended name node d (d.insert name node) ∨ Replaced name node d (d.insert name node) := by
  cases h : d.get? name with
  | none => exact Or.inl (appended_insert h node)
  | some old => exact Or.inr (replaced_insert h node)

/-! ## Entries as they are seen -/

/-- The entries of a directory as they are seen from it: each name with a directory, whatever it
holds, or with a file and its content. -/
def seen (d : Directory) : List (Name × Observation) :=
  d.toList.map fun (name, node) => (name, .of (some node))

/-- Another tree under a name is not seen. -/
theorem seen_insert {children other : Directory} (h : d.sub? name = some children) :
    (d.insert name (.directory other)).seen = d.seen := by
  obtain ⟨before, rest, hparts, hinsert, -⟩ := exists_parts (sub?_eq_some.1 h)
  rw [seen, hinsert, seen, hparts, List.map_append, List.map_append]
  rfl

/-- A change of one name in the directory at the end of a walk is seen in that directory, at the
name or below it, or nowhere. -/
theorem seen_updateAt {change : Directory → Directory} {names path : List Name}
    (keep : ∀ c other, name ≠ other → (change c).get? other = c.get? other)
    (elsewhere : path ≠ names) (outside : ¬names ++ [name] <+: path) :
    ((d.updateAt change names).at? path).map seen = (d.at? path).map seen := by
  induction names generalizing d path with
  | nil =>
    obtain ⟨first, path, rfl⟩ := List.exists_cons_of_ne_nil elsewhere
    have hname : name ≠ first := by
      rintro rfl
      exact outside (by simp)
    rw [updateAt, at?_cons, at?_cons, sub?, keep d first hname, sub?]
  | cons step names ih =>
    cases hc : d.sub? step with
    | none => rw [updateAt_cons_none hc]
    | some children =>
      rw [updateAt_cons_some hc]
      cases path with
      | nil => rw [at?_nil, at?_nil, Option.map_some, Option.map_some, seen_insert hc]
      | cons first path =>
        by_cases hstep : step = first
        · subst hstep
          rw [at?_cons, at?_cons, sub?_eq_some.2 (get?_insert_self d step _), hc]
          exact ih (by simpa using elsewhere) (by simpa using outside)
        · rw [at?_cons, at?_cons, sub?_insert_of_ne d hstep]

end Directory

namespace FileSystem

variable {fs after : FileSystem} {name : Name}

/-! ## The other directories -/

/-- Every directory but the current one, and but those at one of its names or below, has its
entries as they were seen.  There is no directory at that name or below it before, or none
after. -/
structure KeptElsewhere (name : Name) (fs after : FileSystem) : Prop where
  seen : ∀ names, names ≠ Path.segments fs.cwd → ¬Path.segments fs.cwd ++ [name] <+: names →
    (after.drives.at? names).map Directory.seen = (fs.drives.at? names).map Directory.seen
  apart : ∀ names, Path.segments fs.cwd ++ [name] <+: names →
    fs.drives.at? names = none ∨ after.drives.at? names = none

theorem Standing.at?_below (h : fs.Standing) (name : Name) (rest : List Name) :
    fs.drives.at? (Path.segments fs.cwd ++ name :: rest) =
      (fs.here.sub? name).bind (·.at? rest) := by
  rw [Directory.at?_append, h.at?_cwd]
  rfl

theorem Standing.keptElsewhere (h : fs.Standing) {change : Directory → Directory}
    (keep : ∀ c other, name ≠ other → (change c).get? other = c.get? other)
    (apart : fs.here.sub? name = none ∨ (change fs.here).sub? name = none) :
    KeptElsewhere name fs (fs.updateHere change) where
  seen names elsewhere outside := Directory.seen_updateAt keep elsewhere outside
  apart names hnames := by
    obtain ⟨rest, rfl⟩ := hnames
    rw [List.append_assoc, List.singleton_append]
    refine apart.imp (fun hbefore => ?_) fun hafter => ?_
    · rw [h.at?_below, hbefore]
      rfl
    · have hbelow := (h.updateHere change).at?_below name rest
      rw [h.here_updateHere, hafter] at hbelow
      exact hbelow

/-! ## One call -/

theorem Standing.entries_makeDirectory (h : fs.Standing)
    (made : fs.makeDirectory name = .ok after) :
    Directory.Appended name (.directory .empty) fs.here after.here ∧
      KeptElsewhere name fs after := by
  obtain ⟨-, hfree, rfl⟩ := makeDirectory_eq_ok.1 made
  rw [h.here_updateHere]
  refine ⟨Directory.appended_insert hfree _,
    h.keptElsewhere (fun c _ hother => c.get?_insert_of_ne hother _) (Or.inl ?_)⟩
  rw [Directory.sub?, hfree]
  rfl

/-- Among distinct names a removed one is taken by nothing else. -/
theorem Standing.entries_remove (h : fs.Standing) (distinct : fs.here.names.Nodup)
    {recursive : Bool} (removed : fs.remove name recursive = .ok after) :
    Directory.Deleted name fs.here after.here ∧ KeptElsewhere name fs after := by
  obtain ⟨⟨node, hnode, -⟩, -, rfl⟩ := remove_eq_ok.1 removed
  rw [h.here_updateHere]
  refine ⟨Directory.deleted_erase hnode,
    h.keptElsewhere (fun c _ hother => c.get?_erase_of_ne hother) (Or.inr ?_)⟩
  rw [Directory.sub?, Directory.get?_erase_self distinct]
  rfl

theorem Standing.entries_writeFile (h : fs.Standing) (name : Name) (content : Text) :
    (Directory.Appended name (.file content) fs.here (fs.writeFile name content).here ∨
      Directory.Replaced name (.file content) fs.here (fs.writeFile name content).here) ∧
    KeptElsewhere name fs (fs.writeFile name content) := by
  refine ⟨?_, h.keptElsewhere (fun c _ hother => c.get?_insert_of_ne hother _) (Or.inr ?_)⟩
  · rw [FileSystem.writeFile, h.here_updateHere]
    exact Directory.appended_or_replaced_insert fs.here name _
  -- A file under the name is no directory.
  · rw [Directory.sub?, Directory.get?_insert_self]
    rfl

/-! ## Every call in every reachable file system -/

/-- After any calls from an opened file system over a forest that insertions build, no directory
at any depth has two entries of one name.  Every further call that succeeds changes the entries of
the current directory at one name and leaves all others: what is made is appended, what is removed
is deleted, and what is written or copied is appended under a new name and replaced under one that
is taken.  To enter a directory changes no entries, and a call that is refused changes nothing. -/
theorem entries_after_call {drives : Directory} {config : Config} {opened : FileSystem}
    (built : drives.Built) (h : start drives config = .ok opened) (changes : List Change) :
    let fs := opened.attempts changes
    (∀ names d, fs.drives.at? names = some d → d.names.Nodup) ∧
    (∀ name after, fs.makeDirectory name = .ok after →
      Directory.Appended name (.directory .empty) fs.here after.here ∧
      KeptElsewhere name fs after) ∧
    (∀ name recursive after, fs.remove name recursive = .ok after →
      Directory.Deleted name fs.here after.here ∧ KeptElsewhere name fs after) ∧
    (∀ name content,
      (Directory.Appended name (.file content) fs.here (fs.writeFile name content).here ∨
        Directory.Replaced name (.file content) fs.here (fs.writeFile name content).here) ∧
      KeptElsewhere name fs (fs.writeFile name content)) ∧
    (∀ source name after, fs.copyFile source name = .ok after →
      ∃ content, fs.read source = .ok content ∧ after = fs.writeFile name content) ∧
    (∀ input after, fs.enter input = .ok after → after.drives = fs.drives) ∧
    (∀ change failure, fs.perform change = .error failure → fs.attempt change = fs) := by
  intro fs
  have standing : fs.Standing := ((Reachable.opened h).attempts changes).standing
  have distinct : fs.drives.distinct = true := distinct_attempts built h changes
  have hnodup : ∀ names d, fs.drives.at? names = some d → d.names.Nodup := fun names d hd =>
    (Directory.distinct_iff.1 (Directory.distinct_at? distinct hd)).1
  refine ⟨hnodup, fun name after hmake => standing.entries_makeDirectory hmake,
    fun name recursive after => standing.entries_remove (hnodup _ _ standing.at?_cwd),
    standing.entries_writeFile, fun source name after hcopy => ?_, fun input after henter => ?_,
    fun change failure hfailed => ?_⟩
  · obtain ⟨content, hfind, rfl⟩ := copyFile_eq_ok.1 hcopy
    exact ⟨content, read_eq_ok.2 hfind, rfl⟩
  · obtain ⟨-, rfl⟩ := enter_eq_ok.1 henter
    rfl
  · rw [attempt, hfailed]

/-- Among the profiles one is made, a populated one is removed, and a file is written over
another. -/
theorem entries_after_call_profiles :
    ∃ opened, start Reference.drives {} = .ok opened ∧
      let fs := opened.attempts [.enter "..", .write "new" "1", .make "new"]
      (∀ names d, fs.drives.at? names = some d → d.names.Nodup) ∧
      (∃ after, fs.makeDirectory "Private" = .ok after ∧
        Directory.Appended "Private" (.directory .empty) fs.here after.here ∧
        KeptElsewhere "Private" fs after) ∧
      (∃ after, fs.remove "Public" true = .ok after ∧
        Directory.Deleted "Public" fs.here after.here ∧ KeptElsewhere "Public" fs after) ∧
      Directory.Replaced "Public" (.file "2") fs.here (fs.writeFile "Public" "2").here ∧
      KeptElsewhere "Public" fs (fs.writeFile "Public" "2") := by
  have hstart : start Reference.drives {} = .ok _ := rfl
  have hbuilt : Reference.drives.Built := Directory.built_iff_distinct.2 (by decide +kernel)
  refine ⟨_, hstart, ?_⟩
  intro fs
  obtain ⟨hnodup, hmake, hremove, hwrite, -⟩ :=
    entries_after_call hbuilt hstart [.enter "..", .write "new" "1", .make "new"]
  obtain ⟨hstored, hkept⟩ := hwrite "Public" "2"
  have hreplaced := hstored.resolve_left fun happended => happended.1 (by decide)
  exact ⟨hnodup, ⟨_, rfl, hmake _ _ rfl⟩, ⟨_, rfl, hremove _ true _ rfl⟩, hreplaced, hkept⟩

end FileSystem

end DriveShell
