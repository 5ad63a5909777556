import DriveShell.FileSystem.Reference
import DriveShell.Proofs.Moves

/-!
# Valid names

Only making a directory asks for a valid name.  A redirection and a copy reject the
reserved characters and refuse to write over a directory.  That is enough.  The empty
name, `.` and `..` have no reserved characters, but in a standing file system they
lead to a directory (`Standing.target_of_not_isDirectory`).

So if all names below the drives are valid, then they stay so, and each child of the
current directory is found under its own name.  The names of the drives are left out:
they contain a colon.
-/

namespace DriveShell

/-! ## A test of all names in a tree -/

mutual

/-- Whether every name below a node passes a test. -/
def Node.allNames (test : Name → Bool) : Node → Bool
  | .file _ => true
  | .directory children => children.allNames test

/-- Whether every name in a directory and below it passes a test. -/
def Directory.allNames (test : Name → Bool) : Directory → Bool
  | .empty => true
  | .entry name node rest => test name && node.allNames test && rest.allNames test

end

namespace Directory

variable {test : Name → Bool} {d : Directory}

theorem allNames_iff : d.allNames test = true ↔
    ∀ entry ∈ d.toList, test entry.1 = true ∧ entry.2.allNames test = true := by
  induction d with
  | empty => simp [allNames]
  | entry name node rest ih => simp [allNames, ih]

theorem allNames_insert (h : d.allNames test = true) {name : Name} {node : Node}
    (hname : test name = true) (hnode : node.allNames test = true) :
    (d.insert name node).allNames test = true := by
  refine allNames_iff.2 fun entry hentry => ?_
  rcases eq_or_mem_of_mem_insert hentry with rfl | hold
  · exact ⟨hname, hnode⟩
  · exact allNames_iff.1 h entry hold

theorem allNames_erase (h : d.allNames test = true) (name : Name) :
    (d.erase name).allNames test = true :=
  allNames_iff.2 fun entry hentry => allNames_iff.1 h entry (mem_of_mem_erase hentry)

theorem allNames_get? (h : d.allNames test = true) {name : Name} {node : Node}
    (hnode : d.get? name = some node) : test name = true ∧ node.allNames test = true :=
  allNames_iff.1 h _ (mem_of_get? hnode)

theorem allNames_sub? (h : d.allNames test = true) {name : Name} {children : Directory}
    (hchildren : d.sub? name = some children) :
    test name = true ∧ children.allNames test = true :=
  allNames_get? h (sub?_eq_some.1 hchildren)

theorem allNames_at? (h : d.allNames test = true) {names : List Name} {last : Directory}
    (hlast : d.at? names = some last) : last.allNames test = true := by
  induction names generalizing d with
  | nil =>
    cases hlast
    exact h
  | cons name names ih =>
    rw [at?_cons, Option.bind_eq_some_iff] at hlast
    obtain ⟨children, hchildren, hlast⟩ := hlast
    exact ih (allNames_sub? h hchildren).2 hlast

theorem allNames_mono {other : Name → Bool} (d : Directory)
    (h : ∀ name, test name = true → other name = true) (names : d.allNames test = true) :
    d.allNames other = true := by
  induction d using nested with
  | empty => rfl
  | entry name node rest ihbelow ihrest =>
    rw [allNames, Bool.and_eq_true, Bool.and_eq_true] at names ⊢
    obtain ⟨⟨hname, hnode⟩, hrest⟩ := names
    refine ⟨⟨h name hname, ?_⟩, ihrest hrest⟩
    cases node with
    | file content => rfl
    | directory children => exact ihbelow children rfl hnode

/-- The names on the way to a node pass every test that all names pass. -/
theorem allNames_find? (h : d.allNames test = true)
    {names : List Name} {node : Node} (found : d.find? names = some node) :
    ∀ name ∈ names, test name = true := by
  induction names generalizing d with
  | nil => exact List.forall_mem_nil _
  | cons name names ih =>
    cases names with
    | nil => exact List.forall_mem_singleton.2 (allNames_get? h found).1
    | cons below names =>
      rw [find?_cons d name (List.cons_ne_nil below names), Option.bind_eq_some_iff] at found
      obtain ⟨children, hchildren, found⟩ := found
      obtain ⟨hname, hbelow⟩ := allNames_sub? h hchildren
      exact List.forall_mem_cons.2 ⟨hname, ih hbelow found⟩

theorem allNames_updateAt (h : d.allNames test = true) {change : Directory → Directory}
    (keep : ∀ c, c.allNames test = true → (change c).allNames test = true)
    (names : List Name) : (d.updateAt change names).allNames test = true := by
  induction names generalizing d with
  | nil => exact keep d h
  | cons name names ih =>
    cases hc : d.sub? name with
    | none => rwa [updateAt_cons_none hc]
    | some children =>
      obtain ⟨hname, hchildren⟩ := allNames_sub? h hc
      rw [updateAt_cons_some hc]
      exact allNames_insert h hname (ih hchildren)

end Directory

namespace FileSystem

variable {fs after : FileSystem}

/-- Every name below the drives is valid. -/
def NamesValid (fs : FileSystem) : Prop :=
  ∀ drive ∈ fs.drives.toList, drive.2.allNames Path.isValidName = true

instance : Decidable fs.NamesValid :=
  inferInstanceAs (Decidable (∀ drive ∈ fs.drives.toList, _))

/-- The current directory is a drive or below one, so it passes every test that all names below
the drives pass. -/
theorem Standing.allNames_here (h : fs.Standing) {test : Name → Bool}
    (names : ∀ drive ∈ fs.drives.toList, drive.2.allNames test = true) :
    fs.here.allNames test = true := by
  have hat := h.at?_cwd
  obtain ⟨drive, rest, hcwd⟩ := List.exists_cons_of_ne_nil h.cwd_ne_nil
  rw [hcwd, Directory.at?_cons, Option.bind_eq_some_iff] at hat
  obtain ⟨children, hchildren, hat⟩ := hat
  have hdrive := names _ (Directory.mem_of_get? (Directory.sub?_eq_some.1 hchildren))
  exact Directory.allNames_at? hdrive hat

theorem NamesValid.here (h : fs.NamesValid) (standing : fs.Standing) :
    fs.here.allNames Path.isValidName = true :=
  standing.allNames_here h

theorem NamesValid.updateHere (h : fs.NamesValid) (standing : fs.Standing)
    {change : Directory → Directory}
    (keep : ∀ c, c.allNames Path.isValidName = true →
      (change c).allNames Path.isValidName = true) : (fs.updateHere change).NamesValid := by
  obtain ⟨drive, rest, hcwd⟩ := List.exists_cons_of_ne_nil standing.cwd_ne_nil
  intro entry hentry
  rw [FileSystem.updateHere, hcwd] at hentry
  cases hc : fs.drives.sub? drive with
  | none =>
    rw [Directory.updateAt_cons_none hc] at hentry
    exact h entry hentry
  | some children =>
    rw [Directory.updateAt_cons_some hc] at hentry
    rcases Directory.eq_or_mem_of_mem_insert hentry with rfl | hold
    · have hdrive := h _ (Directory.mem_of_get? (Directory.sub?_eq_some.1 hc))
      exact Directory.allNames_updateAt hdrive keep rest
    · exact h entry hold

/-- Every move keeps the names valid. -/
theorem NamesValid.move (h : fs.NamesValid) (standing : fs.Standing) (move : fs.Move after) :
    after.NamesValid := by
  cases move with
  | enter henter =>
    obtain ⟨-, rfl⟩ := enter_eq_ok.1 henter
    exact h
  | make hmake =>
    obtain ⟨hvalid, -, rfl⟩ := makeDirectory_eq_ok.1 hmake
    exact h.updateHere standing fun c hc => Directory.allNames_insert hc hvalid rfl
  | remove hremove =>
    obtain ⟨-, -, rfl⟩ := remove_eq_ok.1 hremove
    exact h.updateHere standing fun c hc => Directory.allNames_erase hc _
  | write hreserved hdirectory =>
    obtain ⟨hvalid, -⟩ := standing.target_of_not_isDirectory hreserved hdirectory
    exact h.updateHere standing fun c hc => Directory.allNames_insert hc hvalid rfl

/-- A child of the current directory is found under its own name, if that is valid. -/
theorem Standing.lookup_child (h : fs.Standing) {name : Name} {node : Node}
    (valid : Path.isValidName name = true) (child : fs.here.get? name = some node) :
    fs.resolve name = Path.child fs.cwd name ∧ fs.lookup (fs.resolve name) = some node := by
  have hfind : fs.find? name = some node := by rw [h.find?_valid valid, child]
  exact ⟨h.resolve_valid valid, hfind⟩

/-- If all names below the drives are valid, then they are valid after any run of command
lines, and each child of the current directory is found under its own name there. -/
theorem names_stay_valid {world : World} (reachable : world.files.Reachable)
    (valid : world.files.NamesValid) (scene : Scene) (lines : List Text) :
    let fs := (Registry.builtin.runLines scene world lines).files
    fs.NamesValid ∧ ∃ children, fs.here? = some children ∧
      ∀ name node, children.get? name = some node →
        fs.resolve name = Path.child fs.cwd name ∧ fs.lookup (fs.resolve name) = some node := by
  intro fs
  have keep : ∀ fs after : FileSystem, fs.Standing → fs.NamesValid → fs.Move after →
      after.NamesValid := fun _ _ hfs hnames move => hnames.move hfs move
  obtain ⟨standing, names⟩ : fs.Standing ∧ fs.NamesValid :=
    Registry.runLines_keeps reachable.standing valid keep scene lines
  refine ⟨names, fs.here, standing.here?_eq, fun name node hnode => ?_⟩
  obtain ⟨hname, -⟩ := Directory.allNames_get? (names.here standing) hnode
  exact standing.lookup_child hname hnode

theorem names_stay_valid_reference :
    ∃ opened, start Reference.drives {} = .ok opened ∧
      let fs := (Registry.builtin.runLines Registry.epoch { files := opened }
        ["echo x > ..", "copy Documents\\report.txt .", "mkdir ..", "echo > a",
          "cd .. >> b"]).files
      fs.NamesValid ∧ ∃ children, fs.here? = some children ∧
        ∀ name node, children.get? name = some node →
          fs.resolve name = Path.child fs.cwd name ∧
            fs.lookup (fs.resolve name) = some node := by
  have hstart : start Reference.drives {} = .ok _ := rfl
  refine ⟨_, hstart, ?_⟩
  exact names_stay_valid (.opened hstart) (by decide +kernel) Registry.epoch _

end FileSystem

end DriveShell
