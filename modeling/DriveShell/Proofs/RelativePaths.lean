import DriveShell.Proofs.Standing

/-!
# Relative paths

A text is relative if it holds no colon and does not begin with a backslash.  Of the
five ways to join an input to the current path, three are for relative inputs, and two
of them take the parent of the current path by cutting its text.  In a standing file
system all three come to one: the input is appended, and the canonical form works off
what it begins with (`Standing.resolve_relative`).  The reason is that the parent of a
canonical path is where `..` leads from it (`parent_eq_canonical`).

The canonical form may be taken in between (`canonical_child_canonical`).  So a relative
`q` after entering `p` names what `p\q` named before (`resolve_entered`), and all that is
asked of it there has the same answer.
-/

namespace DriveShell

namespace Path

theorem child_assoc (path piece more : Text) :
    child (child path piece) more = child path (child piece more) := by
  simp [child]

/-! ## Canonical forms along the way -/

/-- Segments may be settled before more segments come. -/
theorem settle_settle_append (segments more : List Text) :
    settle (settle segments ++ more) = settle (segments ++ more) := by
  rw [settle_append fun s hs => (mem_settle hs).2, settle, List.reverse_reverse, settle,
    List.foldl_append]

/-- Proper segments can be read off their path when more segments come.  No segments at
all are read as the empty one, which is dropped. -/
theorem settle_split_ofSegments {segments : List Text} (proper : ∀ s ∈ segments, isProper s = true)
    (plain : ∀ s ∈ segments, delimiter ∉ s) (more : List Text) :
    settle (Text.split delimiter (ofSegments segments) ++ more) = settle (segments ++ more) := by
  cases segments with
  | nil => rfl
  | cons s segments => rw [split_ofSegments ⟨List.cons_ne_nil _ _, proper, plain⟩]

/-- What comes after a path may as well come after its canonical form. -/
theorem canonical_child_canonical (path piece : Text) :
    canonical (child (canonical path) piece) = canonical (child path piece) := by
  have hsettled : ∀ s ∈ settle (Text.split delimiter path), isProper s = true ∧ delimiter ∉ s :=
    fun s hs => ⟨(mem_settle hs).2, Text.notMem_of_mem_split (mem_settle hs).1⟩
  rw [canonical_eq_settle (child _ _), canonical_eq_settle (child _ _), split_child, split_child,
    canonical_eq_settle path, settle_split_ofSegments (fun s hs => (hsettled s hs).1)
      (fun s hs => (hsettled s hs).2), settle_settle_append]

theorem canonical_canonical (path : Text) : canonical (canonical path) = canonical path := by
  rcases stepwise_of_canonical path with hnil | ⟨segments, hsegments, hpath⟩
  · rw [hnil]
    rfl
  · rw [hpath, canonical_ofSegments hsegments]

/-! ## Relative texts -/

/-- Whether a text holds no colon and does not begin with a backslash. -/
def IsRelative (input : Text) : Prop := ':' ∉ input ∧ input.head? ≠ some delimiter

instance (input : Text) : Decidable (IsRelative input) :=
  inferInstanceAs (Decidable (_ ∧ _))

end Path

theorem Text.dropBeginning?_append (beginning rest : Text) :
    Text.dropBeginning? beginning (beginning ++ rest) = some rest := by
  induction beginning with
  | nil => rfl
  | cons b beginning ih =>
    rw [List.cons_append, Text.dropBeginning?, if_pos rfl]
    exact ih

namespace FileSystem

variable {fs after : FileSystem} {p q : Text}

/-- A relative input is appended to the current path, whatever it begins with. -/
theorem Standing.resolve_relative (h : fs.Standing) {input : Text}
    (relative : Path.IsRelative input) :
    fs.resolve input = Path.canonical (Path.child fs.cwd input) := by
  obtain ⟨hcolon, hhead⟩ := relative
  have hparent : Path.parent fs.cwd = Path.canonical (Path.child fs.cwd Path.above) := by
    have heq := Path.parent_eq_canonical h.stepwise
    rwa [h.rejoined] at heq
  rw [resolve, joined, if_neg (by simpa using hcolon)]
  split
  next habove => rw [habove, hparent, Path.canonical_canonical]
  next =>
    split
    next rest hrest =>
      rw [hparent, Path.canonical_child_canonical, Path.child_assoc,
        Text.eq_append_of_dropBeginning? hrest]
      simp [Path.child]
    next => rfl

/-! ## Going on from a path -/

/-- Apart from the lone `..`, a path that begins with `..\` when it is gone on from does so
already. -/
theorem dropBeginning?_child {rest : Text} (lone : p ≠ Path.above)
    (h : Text.dropBeginning? (Path.above ++ [Path.delimiter]) (Path.child p q) = some rest) :
    ∃ more, p = Path.above ++ [Path.delimiter] ++ more := by
  have happend : p ++ Path.delimiter :: q = Path.above ++ Path.delimiter :: rest := by
    simpa [Path.child] using Text.eq_append_of_dropBeginning? h
  rcases List.append_eq_append_iff.1 happend with ⟨e, habove, he⟩ | ⟨e, hp, he⟩
  · cases e with
    | nil => exact absurd (by simpa using habove.symm) lone
    | cons c e =>
      -- The delimiter after `p` would stand inside `..`.
      have hc : Path.delimiter ∈ Path.above := by
        rw [List.cons_append, List.cons.injEq] at he
        rw [habove, he.1]
        simp
      exact absurd hc (by decide)
  · cases e with
    | nil => exact absurd (by simpa using hp) lone
    | cons c e =>
      rw [List.cons_append, List.cons.injEq] at he
      exact ⟨e, by rw [hp, he.1, List.append_assoc, List.singleton_append]⟩

/-- To join a path and to go on from it can be done in either order.  The empty path is an
exception, since a backslash after it comes first. -/
theorem joined_child (fs : FileSystem) (nonempty : p ≠ []) (plain : ':' ∉ q) :
    fs.joined (Path.child p q) = Path.child (fs.joined p) q := by
  have hcolon : (Path.child p q).contains ':' = p.contains ':' := by
    simp [Path.child, plain, Path.delimiter]
  have hhead : (Path.child p q).head? = p.head? := by
    cases p with
    | nil => exact absurd rfl nonempty
    | cons c p => rfl
  have habove : Path.child p q ≠ Path.above := by
    intro hchild
    have hmem : Path.delimiter ∈ Path.above := by
      rw [← hchild]
      simp [Path.child]
    exact absurd hmem (by decide)
  rw [joined, joined, hcolon, hhead, if_neg habove]
  split
  next => rfl
  next =>
    by_cases hlone : p = Path.above
    · subst hlone
      rw [if_pos rfl]
      rfl
    · rw [if_neg hlone]
      cases hp : Text.dropBeginning? (Path.above ++ [Path.delimiter]) p with
      | some rest =>
        have hrest : Path.child p q =
            Path.above ++ [Path.delimiter] ++ Path.child rest q := by
          rw [Text.eq_append_of_dropBeginning? hp]
          simp [Path.child]
        rw [hrest, Text.dropBeginning?_append]
        exact (Path.child_assoc _ _ _).symm
      | none =>
        have hnone : Text.dropBeginning? (Path.above ++ [Path.delimiter]) (Path.child p q) =
            none := by
          refine Option.eq_none_iff_forall_ne_some.2 fun rest hrest => ?_
          obtain ⟨more, hmore⟩ := dropBeginning?_child hlone hrest
          rw [hmore, Text.dropBeginning?_append] at hp
          cases hp
        rw [hnone]
        simp only
        split
        next => simp [Path.child]
        next => exact (Path.child_assoc _ _ _).symm

/-- After entering `p`, a relative `q` names what `p\q` named before. -/
theorem resolve_entered (nonempty : p ≠ []) (entered : fs.enter p = .ok after)
    (relative : Path.IsRelative q) : after.resolve q = fs.resolve (Path.child p q) := by
  have standing : after.Standing := Standing.enter entered
  obtain ⟨-, rfl⟩ := enter_eq_ok.1 entered
  calc
    _ = Path.canonical (Path.child (fs.resolve p) q) := standing.resolve_relative relative
    _ = Path.canonical (Path.child (fs.joined p) q) := Path.canonical_child_canonical _ _
    _ = fs.resolve (Path.child p q) := by rw [resolve, joined_child fs nonempty relative.1]

/-- What is asked of a relative path after entering `p` has the answer that `p\q` had
before: the same directory to enter, the same listing, the same drawing, and the same
refusal of each.  A file read has the same content.  A refusal to read carries the text as
it was given, so there only the constructor of the failure is the same. -/
theorem relative_after_enter (nonempty : p ≠ []) (entered : fs.enter p = .ok after)
    (relative : Path.IsRelative q) :
    after.enter q = fs.enter (Path.child p q) ∧
    after.list (some q) = fs.list (some (Path.child p q)) ∧
    after.draw (some q) = fs.draw (some (Path.child p q)) ∧
    (after.read q).mapError Failure.ctorIdx =
      (fs.read (Path.child p q)).mapError Failure.ctorIdx := by
  have hresolve := resolve_entered nonempty entered relative
  obtain ⟨-, rfl⟩ := enter_eq_ok.1 entered
  refine ⟨?_, ?_, ?_, ?_⟩
  · rw [enter, enter, hresolve]
    rfl
  · rw [list, list, target, hresolve]
    rfl
  · rw [draw, draw, target, hresolve]
    rfl
  · rw [read, read, find?, find?, hresolve]
    simp only [lookup]
    cases fs.drives.find? (Path.segments (fs.resolve (Path.child p q))) with
    | none => rfl
    | some node =>
      cases node with
      | file content => rfl
      | directory children => rfl

/-- On the reference forest, by a path that begins with `..`, and on by one that goes up past
the drive and down to a file. -/
theorem relative_after_enter_public :
    ∃ fs after, start Reference.drives {} = .ok fs ∧
      fs.enter "..\\.\\Public\\\\" = .ok after ∧
      Path.IsRelative "..\\..\\..\\..\\Users\\.\\Administrator\\Documents\\report.txt" ∧
      let q : Text := "..\\..\\..\\..\\Users\\.\\Administrator\\Documents\\report.txt"
      after.enter q = fs.enter (Path.child "..\\.\\Public\\\\" q) ∧
      after.list (some q) = fs.list (some (Path.child "..\\.\\Public\\\\" q)) ∧
      after.draw (some q) = fs.draw (some (Path.child "..\\.\\Public\\\\" q)) ∧
      (after.read q).mapError Failure.ctorIdx =
        (fs.read (Path.child "..\\.\\Public\\\\" q)).mapError Failure.ctorIdx := by
  have hstart : start Reference.drives {} = .ok _ := rfl
  refine ⟨_, _, hstart, rfl, by decide, ?_⟩
  exact relative_after_enter (by decide) rfl (by decide)

end FileSystem

end DriveShell
