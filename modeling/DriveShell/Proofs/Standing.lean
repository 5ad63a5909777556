import DriveShell.FileSystem.Reference
import DriveShell.Proofs.CanonicalPath
import DriveShell.Proofs.Changes
import DriveShell.Proofs.Walking

/-!
# Where a session stands

A file system is `Standing` if its current path is the path of a stepwise list and
leads to a directory.  Opening gives a standing file system, because the home is made
canonical and looked up first.  Entering gives one for the same reason.  All other
calls change the current directory in place, so the path to it stays and leads to the
changed directory.  Hence every reachable file system is standing.

In a standing file system a name without reserved characters is looked up where a
file of that name is written.  The exceptions are the empty name, `.` and `..`, which
all lead to a directory on the way to the current one (`target_of_not_isDirectory`).
-/

namespace DriveShell

/-- A text with a given beginning is that beginning and the rest. -/
theorem Text.eq_append_of_dropBeginning? {beginning t rest : Text}
    (h : Text.dropBeginning? beginning t = some rest) : t = beginning ++ rest := by
  induction beginning generalizing t with
  | nil =>
    rw [Text.dropBeginning?, Option.some.injEq] at h
    rw [h, List.nil_append]
  | cons b beginning ih =>
    cases t with
    | nil => cases h
    | cons c t =>
      rw [Text.dropBeginning?] at h
      split at h
      next hbc => rw [hbc, ih h, List.cons_append]
      next => cases h

namespace FileSystem

variable {fs after : FileSystem}

/-- The current path is canonical and leads to a directory. -/
structure Standing (fs : FileSystem) : Prop where
  /-- The segments of the current path are those of a canonical path. -/
  stepwise : Path.Stepwise (Path.segments fs.cwd)
  /-- The current path is nothing but its segments. -/
  rejoined : Path.ofSegments (Path.segments fs.cwd) = fs.cwd
  /-- The current path leads to a directory. -/
  leads : fs.here?.isSome

/-! ## Directories at a path -/

theorem lookup_eq_directory {path : Text} (h : Path.segments path ≠ []) {children : Directory} :
    fs.lookup path = some (.directory children) ↔
      fs.drives.at? (Path.segments path) = some children := by
  rw [← Directory.children?_find? fs.drives h, lookup]
  cases fs.drives.find? (Path.segments path) with
  | none => simp
  | some node =>
    cases node with
    | file content => simp [Node.children?]
    | directory c => simp [Node.children?]

theorem here?_eq_at? (h : Path.segments fs.cwd ≠ []) :
    fs.here? = fs.drives.at? (Path.segments fs.cwd) :=
  Directory.children?_find? fs.drives h

/-- No node is at the empty path, so a canonical path with a directory is not empty. -/
theorem standing_of_canonical {path : Text} {children : Directory}
    (cwd : fs.cwd = Path.canonical path) (h : fs.lookup fs.cwd = some (.directory children)) :
    fs.Standing := by
  have leads : fs.here?.isSome := by
    rw [here?, h]
    rfl
  rcases Path.stepwise_of_canonical path with hnil | ⟨segments, hsegments, heq⟩
  · rw [cwd, hnil, lookup, Path.segments_nil] at h
    cases h
  · rw [heq] at cwd
    have hcwd : Path.segments fs.cwd = segments := by
      rw [cwd, Path.segments_ofSegments hsegments]
    exact ⟨hcwd ▸ hsegments, by rw [hcwd, cwd], leads⟩

theorem standing_of_start {drives : Directory} {config : Config}
    (h : start drives config = .ok fs) : fs.Standing := by
  obtain ⟨⟨children, hchildren⟩, rfl⟩ := start_eq_ok.1 h
  exact standing_of_canonical rfl hchildren

namespace Standing

theorem cwd_ne_nil (h : fs.Standing) : Path.segments fs.cwd ≠ [] := h.stepwise.nonempty

theorem canonical_cwd (h : fs.Standing) : Path.canonical fs.cwd = fs.cwd := by
  have hcanonical := Path.canonical_ofSegments h.stepwise
  rwa [h.rejoined] at hcanonical

theorem here?_eq (h : fs.Standing) : fs.here? = some fs.here := by
  obtain ⟨children, hchildren⟩ := Option.isSome_iff_exists.1 h.leads
  rw [here, hchildren]
  rfl

theorem at?_cwd (h : fs.Standing) : fs.drives.at? (Path.segments fs.cwd) = some fs.here := by
  rw [← here?_eq_at? h.cwd_ne_nil, h.here?_eq]

/-- The drive of the current path is the first of its segments. -/
theorem head?_segments (h : fs.Standing) :
    (Path.segments fs.cwd).head? = some fs.currentDrive := by
  have hstepwise := h.stepwise
  have hrejoined := h.rejoined
  rw [currentDrive]
  cases hsegments : Path.segments fs.cwd with
  | nil => exact absurd hsegments h.cwd_ne_nil
  | cons s segments =>
    rw [hsegments] at hstepwise hrejoined
    rw [← hrejoined, Path.drive_ofSegments hstepwise]
    rfl

/-! ## Calls keep a file system standing -/

/-- The current directory after a change of it is the changed one. -/
theorem here?_updateHere (h : fs.Standing) (change : Directory → Directory) :
    (fs.updateHere change).here? = some (change fs.here) := by
  have nonempty : Path.segments (fs.updateHere change).cwd ≠ [] := h.cwd_ne_nil
  rw [here?_eq_at? nonempty, FileSystem.updateHere, Directory.at?_updateAt, h.at?_cwd]
  rfl

theorem updateHere (h : fs.Standing) (change : Directory → Directory) :
    (fs.updateHere change).Standing where
  stepwise := h.stepwise
  rejoined := h.rejoined
  leads := by
    rw [h.here?_updateHere change]
    rfl

/-- A walk to a directory still leads to one after a change of the current directory that
keeps the walks that go on from there. -/
theorem isSome_at?_updateHere (h : fs.Standing) {change : Directory → Directory}
    {names : List Name} (leads : (fs.drives.at? names).isSome)
    (keep : ∀ rest, names = Path.segments fs.cwd ++ rest → (fs.here.at? rest).isSome →
      ((change fs.here).at? rest).isSome) :
    ((fs.updateHere change).drives.at? names).isSome := by
  refine Directory.isSome_at?_updateAt leads fun c rest hc hnames hrest => ?_
  rw [h.at?_cwd, Option.some.injEq] at hc
  subst hc
  exact keep rest hnames hrest

theorem enter {input : Text} (h : fs.enter input = .ok after) : after.Standing := by
  obtain ⟨⟨children, hchildren⟩, rfl⟩ := enter_eq_ok.1 h
  exact standing_of_canonical rfl hchildren

theorem perform (h : fs.Standing) {change : Change} (ok : fs.perform change = .ok after) :
    after.Standing := by
  cases change with
  | enter input => exact enter ok
  | make name =>
    obtain ⟨-, -, rfl⟩ := makeDirectory_eq_ok.1 ok
    exact h.updateHere _
  | remove name recursive =>
    obtain ⟨-, -, rfl⟩ := remove_eq_ok.1 ok
    exact h.updateHere _
  | write name content =>
    cases ok
    exact h.updateHere _
  | copy source destination =>
    obtain ⟨content, -, rfl⟩ := copyFile_eq_ok.1 ok
    exact h.updateHere _

end Standing

theorem Reachable.standing (h : fs.Reachable) : fs.Standing := by
  induction h with
  | opened hstart => exact standing_of_start hstart
  | performed _ ok ih => exact ih.perform ok

/-! ## Names in the current directory -/

/-- A text without reserved characters that is not `..` is joined to the current path. -/
theorem joined_plain {input : Text} (free : Path.hasReserved input = false)
    (h : input ≠ Path.above) : fs.joined input = Path.child fs.cwd input := by
  obtain ⟨⟨hdelimiter, -⟩, hcolon⟩ :
      (Path.delimiter ∉ input ∧ '/' ∉ input) ∧ ':' ∉ input := by
    simpa [Path.hasReserved] using free
  have hprefix : Text.dropBeginning? (Path.above ++ [Path.delimiter]) input = none := by
    refine Option.eq_none_iff_forall_ne_some.2 fun rest hrest => hdelimiter ?_
    rw [Text.eq_append_of_dropBeginning? hrest]
    simp
  have hhead : input.head? ≠ some Path.delimiter := fun hhead =>
    hdelimiter (List.mem_of_mem_head? hhead)
  rw [joined, if_neg (by simpa using hcolon), if_neg h, hprefix]
  exact if_neg hhead

theorem plain_of_free {input : Text} (free : Path.hasReserved input = false) :
    Path.delimiter ∉ input := by
  intro hmem
  simp [Path.hasReserved, hmem] at free

namespace Standing

/-- A proper name without reserved characters is one more segment. -/
theorem resolve_valid (h : fs.Standing) {name : Name} (valid : Path.isValidName name = true) :
    fs.resolve name = Path.child fs.cwd name := by
  obtain ⟨hproper, hfree⟩ := Bool.and_eq_true_iff.1 valid
  rw [Bool.not_eq_true'] at hfree
  have hstep := h.stepwise.concat hproper (plain_of_free hfree)
  rw [resolve, joined_plain hfree (Path.isProper_iff.1 hproper).2.2, ← h.rejoined,
    Path.child_ofSegments h.cwd_ne_nil, Path.canonical_ofSegments hstep]

theorem segments_child (h : fs.Standing) {name : Name} (valid : Path.isValidName name = true) :
    Path.segments (Path.child fs.cwd name) = Path.segments fs.cwd ++ [name] := by
  obtain ⟨hproper, hfree⟩ := Bool.and_eq_true_iff.1 valid
  rw [Bool.not_eq_true'] at hfree
  have hstep := h.stepwise.concat hproper (plain_of_free hfree)
  have hchild := Path.child_ofSegments h.cwd_ne_nil name
  rw [h.rejoined] at hchild
  rw [hchild, Path.segments_ofSegments hstep]

/-- A valid name leads to the child of that name. -/
theorem find?_valid (h : fs.Standing) {name : Name} (valid : Path.isValidName name = true) :
    fs.find? name = fs.here.get? name := by
  rw [find?, h.resolve_valid valid, lookup, h.segments_child valid,
    Directory.find?_append _ _ (List.cons_ne_nil name []), h.at?_cwd]
  rfl

/-- The directory above the current one, which at a drive is the current one itself. -/
theorem find?_above (h : fs.Standing) :
    ∃ children, fs.find? Path.above = some (.directory children) := by
  have hjoined : fs.joined Path.above = Path.parent fs.cwd := rfl
  have hparent := Path.parent_ofSegments h.stepwise
  rw [h.rejoined] at hparent
  -- The way to the directory above is a part of the way to the current one.
  obtain ⟨rest, hrest⟩ := Path.exists_eq_upward_append (Path.segments fs.cwd)
  have hat := h.at?_cwd
  rw [hrest, Directory.at?_append, Option.bind_eq_some_iff] at hat
  obtain ⟨children, hchildren, -⟩ := hat
  have hsegments := Path.segments_ofSegments h.stepwise.upward
  rw [find?, resolve, hjoined, hparent, Path.canonical_ofSegments h.stepwise.upward]
  refine ⟨children, (lookup_eq_directory ?_).2 ?_⟩
  · rw [hsegments]
    exact h.stepwise.upward.nonempty
  · rwa [hsegments]

/-- The empty name and `.` lead to the current directory. -/
theorem resolve_idle (h : fs.Standing) {input : Text} (idle : input = [] ∨ input = Path.here) :
    fs.resolve input = fs.cwd := by
  have hjoined : fs.joined input = Path.child fs.cwd input := by
    rcases idle with rfl | rfl <;> rfl
  have hsplit : Text.split Path.delimiter input = [input] := by
    rcases idle with rfl | rfl <;> rfl
  have hpush : Path.push (Path.segments fs.cwd).reverse input = (Path.segments fs.cwd).reverse := by
    rcases idle with rfl | rfl <;> rfl
  rw [resolve, hjoined, Path.canonical_eq_settle, Path.split_child, hsplit, ← h.rejoined,
    Path.split_ofSegments h.stepwise, Path.settle_append h.stepwise.proper, List.foldl_cons, hpush,
    List.foldl_nil, List.reverse_reverse]

theorem find?_idle (h : fs.Standing) {input : Text} (idle : input = [] ∨ input = Path.here) :
    fs.find? input = some (.directory fs.here) := by
  rw [find?, h.resolve_idle idle]
  exact (lookup_eq_directory h.cwd_ne_nil).2 h.at?_cwd

/-- A text without reserved characters that does not lead to a directory is a valid name,
and no directory stands under it. -/
theorem target_of_not_isDirectory (h : fs.Standing) {target : Text}
    (free : Path.hasReserved target = false)
    (noDirectory : (fs.find? target).any Node.isDirectory = false) :
    Path.isValidName target = true ∧ (fs.here.get? target).any Node.isDirectory = false := by
  have hleads : ∀ children, fs.find? target ≠ some (.directory children) := by
    intro children hfind
    rw [hfind] at noDirectory
    cases noDirectory
  have hproper : Path.isProper target = true := by
    refine Path.isProper_iff.2 ⟨?_, ?_, ?_⟩
    · intro hnil
      exact hleads _ (h.find?_idle (Or.inl hnil))
    · intro hhere
      exact hleads _ (h.find?_idle (Or.inr hhere))
    · rintro rfl
      obtain ⟨children, hchildren⟩ := h.find?_above
      exact hleads children hchildren
  have hvalid : Path.isValidName target = true := by rw [Path.isValidName, hproper, free]; rfl
  rw [h.find?_valid hvalid] at noDirectory
  exact ⟨hvalid, noDirectory⟩

end Standing

/-! ## Every sequence of calls -/

/-- After any calls from an opened file system, refused ones included, the current path
is the join of segments none of which is empty, `.` or `..`; it is its own canonical
form; and it leads to a directory, which is the current one and the one that a change
reaches. -/
theorem cwd_leads_to_directory {drives : Directory} {config : Config} {opened : FileSystem}
    (h : start drives config = .ok opened) (changes : List Change) :
    let fs := opened.attempts changes
    (∃ segments, segments ≠ [] ∧
      (∀ s ∈ segments, s ≠ [] ∧ s ≠ Path.here ∧ s ≠ Path.above ∧ Path.delimiter ∉ s) ∧
      fs.cwd = Path.ofSegments segments) ∧
    Path.canonical fs.cwd = fs.cwd ∧
    ∃ children, fs.lookup fs.cwd = some (.directory children) ∧ fs.here? = some children ∧
      ∀ change, (fs.updateHere change).here? = some (change children) := by
  intro fs
  have hfs : fs.Standing := ((Reachable.opened h).attempts changes).standing
  refine ⟨⟨Path.segments fs.cwd, hfs.cwd_ne_nil, fun s hs => ?_, hfs.rejoined.symm⟩,
    hfs.canonical_cwd, fs.here, ?_, hfs.here?_eq, hfs.here?_updateHere⟩
  · obtain ⟨hnil, hhere, habove⟩ := Path.isProper_iff.1 (hfs.stepwise.proper s hs)
    exact ⟨hnil, hhere, habove, hfs.stepwise.plain s hs⟩
  · exact (lookup_eq_directory hfs.cwd_ne_nil).2 hfs.at?_cwd

/-- Calls over the reference forest, opened at a home that is not canonical.  Nothing
stops the write under the name of the directory above. -/
theorem cwd_leads_to_directory_reference :
    ∃ opened, start Reference.drives
        { home := "C:\\Users\\.\\Public\\..\\Administrator\\" } = .ok opened ∧
      let fs := opened.attempts [.write ".." "x", .remove "Documents" true,
        .enter "..\\.\\Public", .make "a", .enter "a", .make "..", .copy "..\\f" ".",
        .enter "C:\\..\\..\\.\\Windows"]
      (∃ segments, segments ≠ [] ∧
        (∀ s ∈ segments, s ≠ [] ∧ s ≠ Path.here ∧ s ≠ Path.above ∧ Path.delimiter ∉ s) ∧
        fs.cwd = Path.ofSegments segments) ∧
      Path.canonical fs.cwd = fs.cwd ∧
      ∃ children, fs.lookup fs.cwd = some (.directory children) ∧ fs.here? = some children ∧
        ∀ change, (fs.updateHere change).here? = some (change children) := by
  have hstart : start Reference.drives
      { home := "C:\\Users\\.\\Public\\..\\Administrator\\" } = .ok _ := rfl
  refine ⟨_, hstart, ?_⟩
  exact cwd_leads_to_directory hstart _

end FileSystem

end DriveShell
