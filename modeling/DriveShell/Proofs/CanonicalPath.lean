import Mathlib.Data.List.TakeWhile
import DriveShell.Path
import DriveShell.Proofs.Splitting

/-!
# Canonical paths and their segments

A canonical path is read as a list of segments.  `Stepwise` says which lists these
are, and `ofSegments` and `segments` go back and forth between the two.

`canonical` has two branches.  A path that is canonical already is a list of proper
segments, which `settle` leaves alone.  So both branches settle the segments
(`canonical_eq_settle`), and what is left to understand is `settle`, a fold of
`push`: a proper segment is pushed, and every segment on the stack stays proper.
-/

namespace DriveShell

namespace Path

/-- The segments of a canonical path.  There is at least one, and each stands for a
step down and holds no delimiter. -/
structure Stepwise (segments : List Text) : Prop where
  /-- There is a segment for the drive. -/
  nonempty : segments ≠ []
  /-- None is empty, `.` or `..`. -/
  proper : ∀ s ∈ segments, isProper s = true
  /-- None falls apart. -/
  plain : ∀ s ∈ segments, delimiter ∉ s

theorem isProper_iff {segment : Text} :
    isProper segment = true ↔ segment ≠ [] ∧ segment ≠ here ∧ segment ≠ above := by
  simp [isProper, and_assoc]

/-- A segment with a colon is none of the three that do not step down. -/
theorem isProper_of_colon {segment : Text} (h : ':' ∈ segment) : isProper segment = true := by
  refine isProper_iff.2 ⟨?_, ?_, ?_⟩
  · rintro rfl
    cases h
  · rintro rfl
    exact absurd h (by decide)
  · rintro rfl
    exact absurd h (by decide)

namespace Stepwise

/-- Some of the segments are stepwise too, if there are any. -/
theorem of_subset {segments more : List Text} (h : Stepwise segments) (nonempty : more ≠ [])
    (sub : more ⊆ segments) : Stepwise more where
  nonempty := nonempty
  proper s hs := h.proper s (sub hs)
  plain s hs := h.plain s (sub hs)

theorem append {segments more : List Text} (h : Stepwise segments)
    (proper : ∀ s ∈ more, isProper s = true) (plain : ∀ s ∈ more, delimiter ∉ s) :
    Stepwise (segments ++ more) where
  nonempty := List.append_ne_nil_of_left_ne_nil h.nonempty more
  proper := List.forall_mem_append.2 ⟨h.proper, proper⟩
  plain := List.forall_mem_append.2 ⟨h.plain, plain⟩

theorem concat {segments : List Text} {s : Text} (h : Stepwise segments)
    (proper : isProper s = true) (plain : delimiter ∉ s) : Stepwise (segments ++ [s]) :=
  h.append (List.forall_mem_singleton.2 proper) (List.forall_mem_singleton.2 plain)

end Stepwise

/-! ## The stack -/

theorem push_proper (stack : List Text) {segment : Text} (h : isProper segment = true) :
    push stack segment = segment :: stack := by
  obtain ⟨hnil, hhere, habove⟩ := isProper_iff.1 h
  rw [push, if_neg (by simp [hnil, hhere]), if_neg habove]

@[simp] theorem push_nil (stack : List Text) : push stack [] = stack := rfl

@[simp] theorem push_here (stack : List Text) : push stack here = stack := rfl

theorem push_above (stack : List Text) :
    push stack above = if 1 < stack.length then stack.tail else stack := rfl

/-- Whatever is on the stack was there before or has just been pushed and is proper. -/
theorem mem_push {stack : List Text} {segment s : Text} (h : s ∈ push stack segment) :
    s ∈ stack ∨ s = segment ∧ isProper s = true := by
  unfold push at h
  split at h
  next => exact Or.inl h
  next hstay =>
    split at h
    next =>
      split at h
      next => exact Or.inl (List.mem_of_mem_tail h)
      next => exact Or.inl h
    next habove =>
      rcases List.mem_cons.1 h with rfl | h
      · obtain ⟨hnil, hhere⟩ := not_or.1 hstay
        exact Or.inr ⟨rfl, isProper_iff.2 ⟨hnil, hhere, habove⟩⟩
      · exact Or.inl h

theorem mem_foldl_push {segments stack : List Text} {s : Text}
    (h : s ∈ segments.foldl push stack) : s ∈ stack ∨ s ∈ segments ∧ isProper s = true := by
  induction segments generalizing stack with
  | nil => exact Or.inl h
  | cons segment segments ih =>
    rcases ih h with h | ⟨h, hproper⟩
    · rcases mem_push h with h | ⟨rfl, hproper⟩
      · exact Or.inl h
      · exact Or.inr ⟨List.mem_cons_self, hproper⟩
    · exact Or.inr ⟨List.mem_cons_of_mem _ h, hproper⟩

/-- What settling leaves are proper segments of the path. -/
theorem mem_settle {segments : List Text} {s : Text} (h : s ∈ settle segments) :
    s ∈ segments ∧ isProper s = true := by
  rcases mem_foldl_push (List.mem_reverse.1 h) with h | h
  · cases h
  · exact h

theorem foldl_push_proper {segments : List Text} (h : ∀ s ∈ segments, isProper s = true)
    (stack : List Text) : segments.foldl push stack = segments.reverse ++ stack := by
  induction segments generalizing stack with
  | nil => rfl
  | cons segment segments ih =>
    rw [List.foldl_cons, push_proper stack (h segment List.mem_cons_self),
      ih (fun s hs => h s (List.mem_cons_of_mem _ hs))]
    simp

/-- Proper segments need no settling. -/
theorem settle_proper {segments : List Text} (h : ∀ s ∈ segments, isProper s = true) :
    settle segments = segments := by
  rw [settle, foldl_push_proper h, List.append_nil, List.reverse_reverse]

/-- Proper segments are a stack for what comes after them. -/
theorem settle_append {segments : List Text} (h : ∀ s ∈ segments, isProper s = true)
    (more : List Text) :
    settle (segments ++ more) = (more.foldl push segments.reverse).reverse := by
  rw [settle, List.foldl_append, foldl_push_proper h, List.append_nil]

/-- The bottom of a stack is never taken off. -/
theorem getLast?_push {stack : List Text} {bottom : Text} (h : stack.getLast? = some bottom)
    (segment : Text) : (push stack segment).getLast? = some bottom := by
  cases stack with
  | nil => cases h
  | cons top stack =>
    unfold push
    split
    next => exact h
    next =>
      split
      next =>
        cases stack with
        | nil => exact h
        | cons next stack => rwa [List.getLast?_cons_cons] at h
      next => rwa [List.getLast?_cons_cons]

theorem getLast?_foldl_push {stack : List Text} {bottom : Text} (h : stack.getLast? = some bottom)
    (segments : List Text) : (segments.foldl push stack).getLast? = some bottom := by
  induction segments generalizing stack with
  | nil => exact h
  | cons segment segments ih => exact ih (getLast?_push h segment)

/-- A first segment that steps down stays. -/
theorem mem_settle_first {first : Text} (proper : isProper first = true) (rest : List Text) :
    first ∈ settle (first :: rest) := by
  rw [settle, List.foldl_cons, push_proper _ proper, List.mem_reverse]
  exact List.mem_of_getLast? (getLast?_foldl_push rfl rest)

/-- A last segment that steps down stays. -/
theorem mem_settle_last {last : Text} (proper : isProper last = true) (before : List Text) :
    last ∈ settle (before ++ [last]) := by
  rw [settle, List.foldl_append, List.foldl_cons, List.foldl_nil, push_proper _ proper]
  simp

/-! ## Both branches of the canonical form -/

/-- The segments of a path that is canonical as it stands are proper. -/
theorem proper_of_isCanonical {path : Text} (h : isCanonical path = true) :
    ∀ s ∈ Text.split delimiter path, isProper s = true := by
  rw [isCanonical, Text.split] at h
  simp only [Bool.and_eq_true, List.all_eq_true, List.contains_iff_mem] at h
  intro s hs
  rcases List.mem_cons.1 hs with rfl | hs
  · exact isProper_of_colon h.1
  · exact h.2 s hs

/-- The canonical form is the path of the settled segments. -/
theorem canonical_eq_settle (path : Text) :
    canonical path = ofSegments (settle (Text.split delimiter path)) := by
  unfold canonical
  split
  -- A canonical path is given back as it stands, and that is what the join of its pieces is.
  next h =>
    rw [settle_proper (proper_of_isCanonical h)]
    exact (Text.join_split delimiter path).symm
  next => rfl

theorem split_ofSegments {segments : List Text} (h : Stepwise segments) :
    Text.split delimiter (ofSegments segments) = segments :=
  Text.split_join h.nonempty h.plain

theorem canonical_ofSegments {segments : List Text} (h : Stepwise segments) :
    canonical (ofSegments segments) = ofSegments segments := by
  rw [canonical_eq_settle, split_ofSegments h, settle_proper h.proper]

/-- If settling leaves any segments of a path, then they are those of a canonical one. -/
theorem stepwise_settle {path : Text} (h : settle (Text.split delimiter path) ≠ []) :
    Stepwise (settle (Text.split delimiter path)) where
  nonempty := h
  proper _ hs := (mem_settle hs).2
  plain _ hs := Text.notMem_of_mem_split (mem_settle hs).1

/-- A canonical form is empty or the path of a stepwise list. -/
theorem stepwise_of_canonical (path : Text) :
    canonical path = [] ∨ ∃ segments, Stepwise segments ∧ canonical path = ofSegments segments := by
  rw [canonical_eq_settle]
  by_cases h : settle (Text.split delimiter path) = []
  · exact Or.inl (by rw [h]; rfl)
  · exact Or.inr ⟨_, stepwise_settle h, rfl⟩

/-! ## Reading the path of a list -/

theorem segments_ofSegments {segments : List Text} (h : Stepwise segments) :
    Path.segments (ofSegments segments) = segments := by
  rw [Path.segments, split_ofSegments h, List.filter_eq_self]
  intro s hs
  simpa using (isProper_iff.1 (h.proper s hs)).1

@[simp] theorem segments_nil : segments [] = [] := rfl

/-- The segments of the canonical form are what settling leaves. -/
theorem segments_canonical (path : Text) :
    segments (canonical path) = settle (Text.split delimiter path) := by
  rw [canonical_eq_settle]
  by_cases h : settle (Text.split delimiter path) = []
  · rw [h]
    rfl
  · exact segments_ofSegments (stepwise_settle h)

/-- A canonical path is nothing but its segments. -/
theorem ofSegments_segments {path : Text} (h : canonical path = path) :
    ofSegments (segments path) = path :=
  calc ofSegments (segments path)
      _ = ofSegments (segments (canonical path)) := by rw [h]
      _ = ofSegments (settle (Text.split delimiter path)) := by rw [segments_canonical]
      _ = canonical path := (canonical_eq_settle path).symm
      _ = path := h

@[simp] theorem ofSegments_singleton (s : Text) : ofSegments [s] = s := Text.join_singleton _ s

theorem child_ofSegments {segments : List Text} (nonempty : segments ≠ []) (s : Text) :
    child (ofSegments segments) s = ofSegments (segments ++ [s]) := by
  have hjoin := Text.join_concat [delimiter] s nonempty
  rw [child, ofSegments, ofSegments, hjoin, List.append_assoc, List.singleton_append]

theorem split_child (path piece : Text) :
    Text.split delimiter (child path piece) =
      Text.split delimiter path ++ Text.split delimiter piece :=
  Text.split_append delimiter path piece

theorem drive_eq_pieces (path : Text) : drive path = (Text.pieces delimiter path).1 := by
  unfold drive
  induction path with
  | nil => rfl
  | cons c path ih =>
    by_cases h : c = delimiter
    · simp [Text.pieces, h]
    · rw [List.takeWhile_cons_of_pos (by simpa using h), ih]
      simp [Text.pieces, h]

/-- The drive of a path is its first segment. -/
theorem drive_ofSegments {s : Text} {segments : List Text} (h : Stepwise (s :: segments)) :
    drive (ofSegments (s :: segments)) = s := by
  have hsplit := split_ofSegments h
  rw [Text.split, List.cons.injEq] at hsplit
  rw [drive_eq_pieces, hsplit.1]

/-- A path without a delimiter is its own parent. -/
theorem parent_of_plain {path : Text} (h : delimiter ∉ path) : parent path = path := by
  have hdrop : path.reverse.dropWhile (· ≠ delimiter) = [] := by
    refine List.dropWhile_eq_nil_iff.2 fun c hc => decide_eq_true ?_
    rintro rfl
    exact h (List.mem_reverse.1 hc)
  rw [parent, hdrop]

/-- The parent of a child is the path it is a child of. -/
theorem parent_child (path : Text) {s : Text} (h : delimiter ∉ s) :
    parent (child path s) = path := by
  have hdrop : (child path s).reverse.dropWhile (· ≠ delimiter) = delimiter :: path.reverse := by
    rw [child, List.reverse_append, List.reverse_cons, List.append_assoc,
      List.dropWhile_append_of_pos]
    · simp
    · refine fun c hc => decide_eq_true ?_
      rintro rfl
      exact h (List.mem_reverse.1 hc)
  rw [parent, hdrop]
  exact List.reverse_reverse path

/-! ## One step up -/

/-- The segments of the directory above.  Above a drive there is none, so a drive stays. -/
def upward (segments : List Text) : List Text :=
  if 1 < segments.length then segments.dropLast else segments

theorem dropLast_ne_nil {segments : List Text} (h : 1 < segments.length) :
    segments.dropLast ≠ [] :=
  List.ne_nil_of_length_pos (by rw [List.length_dropLast]; omega)

theorem exists_eq_upward_append (segments : List Text) :
    ∃ rest, segments = upward segments ++ rest := by
  rw [upward]
  split
  next h =>
    exact ⟨_, (List.dropLast_concat_getLast (List.length_pos_iff.1 (Nat.lt_of_succ_lt h))).symm⟩
  next => exact ⟨[], (List.append_nil segments).symm⟩

theorem Stepwise.upward {segments : List Text} (h : Stepwise segments) :
    Stepwise (upward segments) := by
  obtain ⟨rest, hrest⟩ := exists_eq_upward_append segments
  refine h.of_subset ?_ fun s hs => ?_
  · rw [Path.upward]
    split
    next hlength => exact dropLast_ne_nil hlength
    next => exact h.nonempty
  · rw [hrest]
    exact List.mem_append_left _ hs

/-- `..` takes the top off the stack of some segments and leaves a lone one. -/
theorem push_above_reverse (segments : List Text) :
    push segments.reverse above = (upward segments).reverse := by
  rw [push_above, upward, List.length_reverse, List.tail_reverse]
  split
  next => rfl
  next => rfl

theorem settle_append_above {segments : List Text} (h : Stepwise segments) (more : List Text) :
    settle (segments ++ above :: more) = settle (upward segments ++ more) := by
  rw [settle_append h.proper, settle_append h.upward.proper, List.foldl_cons, push_above_reverse]

theorem parent_ofSegments {segments : List Text} (h : Stepwise segments) :
    parent (ofSegments segments) = ofSegments (upward segments) := by
  have hsplit := List.dropLast_concat_getLast h.nonempty
  have hlast : delimiter ∉ segments.getLast h.nonempty := h.plain _ (List.getLast_mem _)
  rw [upward]
  split
  next hlength =>
    rw [← hsplit, ← child_ofSegments (dropLast_ne_nil hlength), parent_child _ hlast, hsplit]
  next hlength =>
    obtain ⟨s, rfl⟩ := List.length_eq_one_iff.1
      (Nat.le_antisymm (Nat.not_lt.1 hlength) (List.length_pos_iff.2 h.nonempty))
    rw [ofSegments_singleton]
    exact parent_of_plain hlast

/-- The parent of a canonical path is where `..` leads from it. -/
theorem parent_eq_canonical {segments : List Text} (h : Stepwise segments) :
    parent (ofSegments segments) = canonical (child (ofSegments segments) above) := by
  have habove : Text.split delimiter above = [above] := rfl
  rw [canonical_eq_settle, split_child, split_ofSegments h, habove, settle_append_above h,
    List.append_nil, settle_proper h.upward.proper, parent_ofSegments h]

end Path

end DriveShell
