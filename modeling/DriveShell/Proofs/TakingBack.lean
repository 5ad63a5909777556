import DriveShell.Proofs.Observations

/-!
# Taking back a new child

What is made or written under a new name comes to the end of the current directory, and removing
the name takes out that very entry (`Directory.erase_insert`).  So the two calls leave the current
directory as it was.  The rest of the tree is another matter at first sight, since both calls put a
changed directory under each name on the way down.  Where nothing has changed at the end of the way,
though, each of these is the directory that stood there before, and to put a node where it stands
already changes nothing, not even the order (`Directory.updateAt_eq_self`).  Hence the file system
is the very one from before.

Removing asks first whether the name is there, then whether it is protected, and last whether it is
that of a populated directory.  A new child is there and not populated, so only its protection
counts.  No call asks for that when the child is made.  Thus a protected name can be made on the
primary drive and not be removed again.
-/

namespace DriveShell

namespace Directory

variable {d : Directory} {name : Name} {node : Node}

/-- Erasing a new name takes out its own entry. -/
theorem erase_insert (free : d.get? name = none) (node : Node) :
    (d.insert name node).erase name = d := by
  induction d with
  | empty => rw [insert_empty, erase_entry, if_pos rfl]
  | entry n old rest ih =>
    rw [get?_entry] at free
    split at free
    next => cases free
    next hn => rw [insert_entry, if_neg hn, erase_entry, if_neg hn, ih free]

/-- To put a node where it stands already changes nothing. -/
theorem insert_eq_self (h : d.get? name = some node) : d.insert name node = d := by
  induction d with
  | empty => cases h
  | entry n old rest ih =>
    rw [get?_entry] at h
    rw [insert_entry]
    split at h
    next hn => rw [if_pos hn, Option.some.inj h]
    next hn => rw [if_neg hn, ih h]

/-- A tree is the same if the directory at the end of the walk is. -/
theorem updateAt_eq_self {change : Directory → Directory} {names : List Name}
    (same : ∀ c, d.at? names = some c → change c = c) : d.updateAt change names = d := by
  induction names generalizing d with
  | nil => exact same d rfl
  | cons name names ih =>
    cases hc : d.sub? name with
    | none => rw [updateAt_cons_none hc]
    | some children =>
      have hchildren : children.updateAt change names = children := by
        refine ih fun c hat => same c ?_
        rw [at?_cons, hc]
        exact hat
      rw [updateAt_cons_some hc, hchildren, insert_eq_self (sub?_eq_some.1 hc)]

end Directory

namespace FileSystem

variable {fs after : FileSystem} {name : Name} {node : Node}

theorem isProtected_iff :
    fs.isProtected name = true ↔ fs.currentDrive = fs.primaryDrive ∧ name ∈ fs.protectedNames := by
  simp [isProtected]

/-- A protected child stays, whatever it is and whatever is asked for. -/
theorem remove_of_isProtected (taken : fs.here.get? name = some node)
    (hprotected : fs.isProtected name = true) (recursive : Bool) :
    fs.remove name recursive = .error (.accessDenied name) := by
  rw [remove, taken]
  exact if_pos hprotected

namespace Standing

/-- Two changes of the current directory that leave it as it was leave everything as it was. -/
theorem updateHere_updateHere (h : fs.Standing) {first second : Directory → Directory}
    (back : second (first fs.here) = fs.here) : (fs.updateHere first).updateHere second = fs := by
  have hdrives : (fs.drives.updateAt first (Path.segments fs.cwd)).updateAt second
      (Path.segments fs.cwd) = fs.drives := by
    rw [Directory.updateAt_updateAt]
    refine Directory.updateAt_eq_self fun c hat => ?_
    rw [h.at?_cwd, Option.some.injEq] at hat
    rw [← hat]
    exact back
  exact congrArg (fun drives => { fs with drives := drives }) hdrives

/-- A new child that is not populated is removed without a trace, unless its name is protected. -/
theorem remove_insert (h : fs.Standing) (free : fs.here.get? name = none)
    (lone : node.children?.any (!·.isEmpty) = false) (unprotected : fs.isProtected name = false)
    (recursive : Bool) :
    (fs.updateHere (·.insert name node)).remove name recursive = .ok fs := by
  refine remove_eq_ok.2 ⟨⟨node, ?_, fun populated => ?_⟩, unprotected, ?_⟩
  · rw [h.here_updateHere, Directory.get?_insert_self]
  · rw [lone] at populated
    cases populated
  · exact (h.updateHere_updateHere (Directory.erase_insert free node)).symm

end Standing

/-! ## Making and removing -/

/-- A file system has come from another one by a new child, which may be taken back unless its name
is protected. -/
structure TakenBack (name : Name) (node : Node) (fs after : FileSystem) : Prop where
  /-- The child is at the end of the current directory. -/
  appended : after.here.toList = fs.here.toList ++ [(name, node)]
  /-- Without protection, removing the child gives the file system from before. -/
  removed : ¬(fs.currentDrive = fs.primaryDrive ∧ name ∈ fs.protectedNames) →
    ∀ recursive, after.remove name recursive = .ok fs
  /-- With protection it is refused, and nothing changes. -/
  refused : fs.currentDrive = fs.primaryDrive → name ∈ fs.protectedNames →
    ∀ recursive, after.remove name recursive = .error (.accessDenied name) ∧
      after.attempt (.remove name recursive) = after

theorem Standing.takenBack (h : fs.Standing) (free : fs.here.get? name = none)
    (lone : node.children?.any (!·.isEmpty) = false) :
    TakenBack name node fs (fs.updateHere (·.insert name node)) where
  appended := by rw [h.here_updateHere, Directory.toList_insert_of_free free]
  removed unprotected := by
    refine h.remove_insert free lone (Bool.eq_false_iff.2 fun hprotected => ?_)
    exact unprotected (isProtected_iff.1 hprotected)
  refused primary listed recursive := by
    have taken : (fs.updateHere (·.insert name node)).here.get? name = some node := by
      rw [h.here_updateHere, Directory.get?_insert_self]
    have hremove := remove_of_isProtected taken (isProtected_iff.2 ⟨primary, listed⟩) recursive
    refine ⟨hremove, ?_⟩
    rw [FileSystem.attempt, FileSystem.perform, hremove]

/-- Whatever is made or written under a name that is not taken in a reachable file system can be
removed again, and that leaves exactly the file system from before.  On the primary drive a
protected name is an exception.  Its removal is refused, and the child stays. -/
theorem remove_takes_back (reachable : fs.Reachable) (free : name ∉ fs.here.names) :
    (∀ after, fs.makeDirectory name = .ok after →
      TakenBack name (.directory .empty) fs after) ∧
    ∀ content, TakenBack name (.file content) fs (fs.writeFile name content) := by
  have hfree : fs.here.get? name = none := Directory.get?_eq_none_iff.2 free
  refine ⟨fun after hmake => ?_, fun content => reachable.standing.takenBack hfree rfl⟩
  obtain ⟨-, -, rfl⟩ := makeDirectory_eq_ok.1 hmake
  exact reachable.standing.takenBack hfree rfl

/-- One protected name on both drives, and a file under the name of the directory above. -/
theorem remove_takes_back_windows :
    ∃ opened, start Reference.drives {} = .ok opened ∧
      let data := opened.attempts [.enter "D:\\Data"]
      ("Windows".toList ∉ opened.here.names ∧ ∃ after, opened.makeDirectory "Windows" = .ok after ∧
        TakenBack "Windows" (.directory .empty) opened after ∧
        after.remove "Windows" true = .error (.accessDenied "Windows")) ∧
      ("Windows".toList ∉ data.here.names ∧ ∃ after, data.makeDirectory "Windows" = .ok after ∧
        after.remove "Windows" false = .ok data) ∧
      "..".toList ∉ data.here.names ∧ (data.writeFile ".." "x").remove ".." false = .ok data := by
  have hstart : start Reference.drives {} = .ok _ := rfl
  refine ⟨_, hstart, ?_⟩
  intro data
  have hopened := remove_takes_back (.opened hstart) (show "Windows".toList ∉ _ by decide)
  have hreachable : data.Reachable := (Reachable.opened hstart).attempts _
  have hdata := remove_takes_back hreachable (show "Windows".toList ∉ _ by decide)
  have habove := remove_takes_back hreachable (show "..".toList ∉ _ by decide)
  refine ⟨⟨by decide, _, rfl, hopened.1 _ rfl, ?_⟩, ⟨by decide, _, rfl, ?_⟩, by decide, ?_⟩
  · exact ((hopened.1 _ rfl).refused (by decide) (by decide) true).1
  · exact (hdata.1 _ rfl).removed (by decide) false
  · exact (habove.2 "x").removed (by decide) false

end FileSystem

end DriveShell
