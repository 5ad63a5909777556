import Mathlib.Data.Set.Function
import DriveShell.Proofs.CanonicalPath

/-!
# Canonical paths as lists of segments

A text is a canonical path if the list of its pieces is `Rooted`: it is stepwise, and the first
piece holds a colon (`isCanonical_iff_rooted`).  The test for canonical paths treats the first piece
by another rule than the others.  But a piece with a colon is never empty, `.` or `..`, and so all
pieces step down (`isCanonical_iff`).

The test decides whether a path is given back as it is or rebuilt from its settled segments.  To
rebuild a path changes nothing exactly if all of its pieces step down, or if it is empty
(`rebuilt_eq_self_iff`).  Hence the test accepts nothing that would be changed.  It refuses some
texts that would not be, such as `x\y`, and these are rebuilt for nothing.

Between canonical paths and rooted lists, `segments` and `ofSegments` are inverse to each other.
What the operations on paths do is read off the lists.  `parent` takes the last segment off and
leaves the first.  So after as many times as there are segments below the drive it has come to the
drive, and stays (`iterate_parent`).
-/

namespace DriveShell

namespace Path

variable {path d : Text} {list below : List Text}

/-! ## The test and the pieces -/

/-- The segments of a path that begins with a drive. -/
structure Rooted (segments : List Text) : Prop extends Stepwise segments where
  /-- The first segment holds a colon. -/
  colon : ∀ drive ∈ segments.head?, ':' ∈ drive

theorem isCanonical_iff :
    isCanonical path = true ↔
      ':' ∈ drive path ∧ ∀ s ∈ Text.split delimiter path, isProper s = true := by
  rw [drive_eq_pieces]
  constructor
  · intro h
    have hproper := proper_of_isCanonical h
    rw [isCanonical, Text.split, Bool.and_eq_true, List.contains_iff_mem] at h
    exact ⟨h.1, hproper⟩
  · rintro ⟨hcolon, hproper⟩
    rw [Text.split, List.forall_mem_cons] at hproper
    rw [isCanonical, Text.split, Bool.and_eq_true, List.contains_iff_mem, List.all_eq_true]
    exact ⟨hcolon, hproper.2⟩

theorem isCanonical_iff_rooted :
    isCanonical path = true ↔ Rooted (Text.split delimiter path) := by
  rw [isCanonical_iff, drive_eq_pieces]
  constructor
  · rintro ⟨hcolon, hproper⟩
    refine ⟨⟨Text.split_ne_nil delimiter path, hproper, fun s => Text.notMem_of_mem_split⟩, ?_⟩
    rintro _ ⟨⟩
    exact hcolon
  · intro h
    exact ⟨h.colon _ rfl, h.proper⟩

/-! ## Rebuilding -/

/-- The path of what is left of the segments when they are settled. -/
def rebuilt (path : Text) : Text := ofSegments (settle (Text.split delimiter path))

/-- To rebuild a path changes nothing exactly if all of its pieces step down.  The empty path is an
exception, whose only piece is dropped. -/
theorem rebuilt_eq_self_iff :
    rebuilt path = path ↔ path = [] ∨ ∀ s ∈ Text.split delimiter path, isProper s = true := by
  constructor
  · intro h
    by_cases hsettle : settle (Text.split delimiter path) = []
    · left
      rw [← h, rebuilt, hsettle]
      rfl
    · right
      -- The settled segments can be read off the rebuilt path, which is the path itself.
      have hsplit : Text.split delimiter path = settle (Text.split delimiter path) :=
        calc Text.split delimiter path
          _ = Text.split delimiter (rebuilt path) := by rw [h]
          _ = settle (Text.split delimiter path) := split_ofSegments (stepwise_settle hsettle)
      intro s hs
      rw [hsplit] at hs
      exact (mem_settle hs).2
  · rintro (rfl | hproper)
    · rfl
    · rw [rebuilt, settle_proper hproper]
      exact Text.join_split delimiter path

/-- The paths that the test accepts are those that name a drive and need not be rebuilt. -/
theorem isCanonical_iff_rebuilt :
    isCanonical path = true ↔ ':' ∈ drive path ∧ rebuilt path = path := by
  rw [isCanonical_iff, rebuilt_eq_self_iff]
  refine and_congr_right fun hcolon => (or_iff_right ?_).symm
  rintro rfl
  cases hcolon

/-- For every text: if the test accepts it, then settling leaves its segments as they are, and it is
what it is rebuilt to.  So the canonical form is the rebuilt path in either case, and giving a path
back as it stands cannot be told from rebuilding it.  The test accepts as much as it may: a text
with a drive that it refuses is changed when it is rebuilt. -/
theorem rebuilt_of_accepted (path : Text) :
    (isCanonical path = true →
      settle (Text.split delimiter path) = Text.split delimiter path ∧ rebuilt path = path) ∧
    canonical path = rebuilt path ∧
    (isCanonical path = false → ':' ∈ drive path → rebuilt path ≠ path) := by
  refine ⟨fun h => ⟨settle_proper (proper_of_isCanonical h), (isCanonical_iff_rebuilt.1 h).2⟩,
    canonical_eq_settle path, fun h hcolon hsame => ?_⟩
  rw [isCanonical_iff_rebuilt.2 ⟨hcolon, hsame⟩] at h
  cases h

/-- A colon in two segments and a segment of three dots are accepted, and an empty segment after the
drive is not. -/
theorem rebuilt_of_accepted_three_dots :
    isCanonical "C:\\...\\a:b" = true ∧ rebuilt "C:\\...\\a:b" = "C:\\...\\a:b".toList ∧
    isCanonical "C:\\\\a" = false ∧ ':' ∈ drive "C:\\\\a" ∧
    rebuilt "C:\\\\a" ≠ "C:\\\\a".toList := by
  have haccepted : isCanonical "C:\\...\\a:b" = true := by decide
  have hrefused : isCanonical "C:\\\\a" = false := by decide
  have hdrive : ':' ∈ drive "C:\\\\a" := by decide
  exact ⟨haccepted, ((rebuilt_of_accepted _).1 haccepted).2, hrefused, hdrive,
    (rebuilt_of_accepted _).2.2 hrefused hdrive⟩

/-! ## Paths and lists -/

/-- None of the pieces of a canonical path is empty. -/
theorem segments_of_isCanonical (h : isCanonical path = true) :
    segments path = Text.split delimiter path := by
  have hsegments := segments_ofSegments (isCanonical_iff_rooted.1 h).toStepwise
  rwa [ofSegments, Text.join_split] at hsegments

theorem mapsTo_segments :
    Set.MapsTo segments {path | isCanonical path = true} {list | Rooted list} := by
  intro path (h : isCanonical path = true)
  show Rooted (segments path)
  rw [segments_of_isCanonical h]
  exact isCanonical_iff_rooted.1 h

theorem mapsTo_ofSegments :
    Set.MapsTo ofSegments {list | Rooted list} {path | isCanonical path = true} := by
  intro list (h : Rooted list)
  show isCanonical (ofSegments list) = true
  rw [isCanonical_iff_rooted, split_ofSegments h.toStepwise]
  exact h

theorem invOn_ofSegments :
    Set.InvOn ofSegments segments {path | isCanonical path = true} {list | Rooted list} := by
  constructor
  · intro path (h : isCanonical path = true)
    rw [segments_of_isCanonical h]
    exact Text.join_split delimiter path
  · intro list (h : Rooted list)
    exact segments_ofSegments h.toStepwise

/-! ## Going up -/

theorem Stepwise.of_cons {more : List Text} (h : Stepwise (d :: below)) (sub : more ⊆ below) :
    Stepwise (d :: more) :=
  h.of_subset (List.cons_ne_nil d more) (List.cons_subset_cons d sub)

theorem upward_cons (d : Text) (below : List Text) :
    upward (d :: below) = d :: below.dropLast := by
  cases below with
  | nil => rfl
  | cons s below => rfl

/-- The parent, taken any number of times, loses as many segments, but never the first. -/
theorem iterate_parent (h : Stepwise (d :: below)) (n : Nat) :
    parent^[n] (ofSegments (d :: below)) = ofSegments (d :: below.take (below.length - n)) := by
  induction n generalizing below with
  | zero => rw [Nat.sub_zero, List.take_length, Function.iterate_zero_apply]
  | succ n ih =>
    have hbelow : below.dropLast.take (below.dropLast.length - n) =
        below.take (below.length - (n + 1)) := by
      rw [List.dropLast_eq_take, List.take_take, List.length_take]
      congr 1
      omega
    rw [Function.iterate_succ_apply, parent_ofSegments h, upward_cons,
      ih (h.of_cons (List.dropLast_subset below)), hbelow]

/-- The drive is reached when all other segments are gone, and not before. -/
theorem iterate_parent_eq_drive_iff (h : Stepwise (d :: below)) (n : Nat) :
    parent^[n] (ofSegments (d :: below)) = d ↔ below.length ≤ n := by
  rw [iterate_parent h]
  constructor
  · intro hdrive
    have htaken := segments_ofSegments (h.of_cons (List.take_subset (below.length - n) below))
    have hsegments := segments_ofSegments (h.of_cons (List.nil_subset below))
    rw [ofSegments_singleton] at hsegments
    rw [hdrive, hsegments] at htaken
    have hnil : below.take (below.length - n) = [] := (List.cons.inj htaken).2.symm
    rcases List.take_eq_nil_iff.1 hnil with hcount | rfl
    · exact Nat.sub_eq_zero_iff_le.1 hcount
    · exact Nat.zero_le n
  · intro hn
    rw [Nat.sub_eq_zero_of_le hn, List.take_zero, ofSegments_singleton]

/-- Canonical paths and rooted lists are in bijection by `segments`, whose inverse joins the segments
again.  Of the path of such a list, the canonical form is the path itself, the drive is the first
segment, and the parent is the path without the last of the others.  The parent taken `n` times is
the path without the last `n` of the others.  It is the drive if and only if `n` is at least their
number. -/
theorem segments_bijOn_canonical :
    Set.BijOn segments {path | isCanonical path = true} {list | Rooted list} ∧
    Set.InvOn ofSegments segments {path | isCanonical path = true} {list | Rooted list} ∧
    ∀ d below, Rooted (d :: below) →
      canonical (ofSegments (d :: below)) = ofSegments (d :: below) ∧
      drive (ofSegments (d :: below)) = d ∧
      parent (ofSegments (d :: below)) = ofSegments (d :: below.dropLast) ∧
      ∀ n, parent^[n] (ofSegments (d :: below)) =
          ofSegments (d :: below.take (below.length - n)) ∧
        (parent^[n] (ofSegments (d :: below)) = d ↔ below.length ≤ n) := by
  refine ⟨invOn_ofSegments.bijOn mapsTo_segments mapsTo_ofSegments, invOn_ofSegments,
    fun d below h => ?_⟩
  have hstepwise : Stepwise (d :: below) := h.toStepwise
  refine ⟨canonical_ofSegments hstepwise, drive_ofSegments hstepwise, ?_,
    fun n => ⟨iterate_parent hstepwise n, iterate_parent_eq_drive_iff hstepwise n⟩⟩
  rw [parent_ofSegments hstepwise, upward_cons]

/-- Three segments, of which the last holds a colon too. -/
theorem segments_bijOn_canonical_two_colons :
    Rooted ["C:".toList, "...".toList, "a:b".toList] ∧
    parent (ofSegments ["C:", "...", "a:b"]) = ofSegments ["C:", "..."] ∧
    parent^[1] (ofSegments ["C:", "...", "a:b"]) ≠ "C:".toList ∧
    parent^[7] (ofSegments ["C:", "...", "a:b"]) = "C:".toList := by
  have hrooted : Rooted ["C:".toList, "...".toList, "a:b".toList] :=
    ⟨⟨by decide, by decide, by decide⟩, by decide⟩
  obtain ⟨-, -, hparent, hiterate⟩ := segments_bijOn_canonical.2.2 _ _ hrooted
  exact ⟨hrooted, hparent, fun hdrive => absurd ((hiterate 1).2.1 hdrive) (by decide),
    (hiterate 7).2.2 (by decide)⟩

end Path

end DriveShell
