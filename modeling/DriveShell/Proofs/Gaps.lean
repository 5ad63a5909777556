import DriveShell.Proofs.CanonicalPath
import DriveShell.Proofs.Trimming

/-!
# Gaps between words

A text without quotes that is cut into words and joined with single spaces comes back with its
gaps changed: each run of blanks has become one space.  `evened` is that text, as a recursion on
its own, and `scan_unquoted` says that cutting and joining gives it.

Evening a text is an operation on its characters and settling a path one on its segments.  They
do not get into each other's way.  The delimiter is no blank, so the segments of an evened path
are the evened segments (`split_evened`).  And no segment becomes or ceases to be empty, `.` or
`..`, so it makes no difference whether segments are evened before they are settled or after
(`settle_map_evened`).
-/

namespace DriveShell

namespace Text

variable {c : Char} {t : Text}

theorem ne_of_isBlank {d : Char} (blank : isBlank c = true) (solid : isBlank d = false) :
    c ≠ d := by
  rintro rfl
  exact Bool.noConfusion (blank.symm.trans solid)

/-! ## One space for each run of blanks -/

/-- The text with one space for each run of blanks. -/
def evened : Text → Text
  | [] => []
  | c :: rest =>
    if !isBlank c then c :: evened rest
    else if rest.head?.any isBlank then evened rest
    else ' ' :: evened rest

@[simp] theorem evened_nil : evened [] = [] := rfl

theorem evened_cons_solid (solid : isBlank c = false) (t : Text) :
    evened (c :: t) = c :: evened t := by
  rw [evened, solid]
  rfl

theorem evened_cons_blank (blank : isBlank c = true) (t : Text) :
    evened (c :: t) = if t.head?.any isBlank then evened t else ' ' :: evened t := by
  rw [evened, blank]
  rfl

/-- The blanks at the beginning become one space. -/
theorem evened_blank_cons (blank : isBlank c = true) (t : Text) :
    evened (c :: t) = ' ' :: evened (t.dropWhile isBlank) := by
  induction t generalizing c with
  | nil => rw [evened_cons_blank blank]; rfl
  | cons d t ih =>
    rw [evened_cons_blank blank]
    cases hd : isBlank d with
    | true => rw [if_pos (by simp [hd]), ih hd, List.dropWhile_cons_of_pos hd]
    | false => rw [if_neg (by simp [hd]), List.dropWhile_cons_of_neg (by simp [hd])]

/-- A character that is no blank stays, and none comes in. -/
theorem mem_evened (solid : isBlank c = false) : c ∈ evened t ↔ c ∈ t := by
  have hspace : c ≠ ' ' := (ne_of_isBlank (by decide) solid).symm
  induction t with
  | nil => rfl
  | cons d t ih =>
    cases hd : isBlank d with
    | false => simp [evened_cons_solid hd, ih]
    | true =>
      have hne : c ≠ d := (ne_of_isBlank hd solid).symm
      rw [evened_cons_blank hd]
      split
      next => simp [ih, hne]
      next => simp [ih, hne, hspace]

/-- What begins with no blank keeps its beginning. -/
theorem head?_evened (first : ∀ c ∈ t.head?, isBlank c = false) : (evened t).head? = t.head? := by
  cases t with
  | nil => rfl
  | cons c t => rw [evened_cons_solid (first c rfl)]; rfl

theorem evened_solid (solid : ∀ c ∈ t, isBlank c = false) : evened t = t := by
  induction t with
  | nil => rfl
  | cons c t ih =>
    obtain ⟨hc, ht⟩ := List.forall_mem_cons.1 solid
    rw [evened_cons_solid hc, ih ht]

/-- A text without blanks is evened from no other text. -/
theorem evened_eq_solid {u : Text} (solid : ∀ c ∈ u, isBlank c = false) :
    evened t = u ↔ t = u := by
  refine ⟨fun h => ?_, fun h => h ▸ evened_solid (h ▸ solid)⟩
  induction t generalizing u with
  | nil => exact h
  | cons c t ih =>
    cases hc : isBlank c with
    | true =>
      rw [evened_blank_cons hc] at h
      subst h
      exact absurd (solid ' ' List.mem_cons_self) (by decide)
    | false =>
      rw [evened_cons_solid hc] at h
      subst h
      rw [← ih (List.forall_mem_cons.1 solid).2 rfl]

/-! ## Pieces -/

/-- The pieces of an evened text are the evened pieces, if the separator is no blank. -/
theorem split_evened {separator : Char} (solid : isBlank separator = false) (t : Text) :
    split separator (evened t) = (split separator t).map evened := by
  induction t with
  | nil => rfl
  | cons c t ih =>
    cases hc : isBlank c with
    | false =>
      rw [evened_cons_solid hc, split_cons, split_cons, ih]
      split
      next => rfl
      next => simp [split, evened_cons_solid hc]
    | true =>
      -- The first piece goes on with a blank exactly if the text does.
      have hfirst : (pieces separator t).1.head?.any isBlank = t.head?.any isBlank := by
        cases t with
        | nil => rfl
        | cons d t =>
          by_cases hd : d = separator
          · simp [pieces, hd, solid]
          · simp [pieces, hd]
      have hpieces : split separator t = (pieces separator t).1 :: (pieces separator t).2 := rfl
      rw [evened_cons_blank hc, split_cons, if_neg (ne_of_isBlank hc solid), hpieces,
        List.modifyHead_cons, List.map_cons, evened_cons_blank hc, hfirst]
      split
      next => exact ih
      next =>
        rw [split_cons, if_neg (ne_of_isBlank (by decide) solid), ih]
        rfl

end Text

/-! ## Words -/

namespace Words

variable {t : Text}

/-- A scan cuts a text into some words, and joined they are another text. -/
def CutInto (mode : Mode) (t image : Text) : Prop :=
  ∃ words, scan mode t = some words ∧ words ≠ [] ∧ Text.join [' '] words = image

/-- Cutting a text without quotes and joining the words evens it.  In a word the scan keeps the
blanks that come first, as one space; between words it drops them. -/
theorem scan_unquoted (unquoted : '"' ∉ t) (last : ∀ c ∈ t.getLast?, Text.isBlank c = false) :
    CutInto .inWord t (Text.evened t) ∧
      (t ≠ [] → CutInto .between t (Text.evened (t.dropWhile Text.isBlank))) := by
  induction t with
  | nil => exact ⟨⟨[[]], rfl, List.cons_ne_nil _ _, rfl⟩, fun h => absurd rfl h⟩
  | cons c t ih =>
    obtain ⟨hquote, ht⟩ := not_or.1 (mt List.mem_cons.2 unquoted)
    have hlast : ∀ d ∈ t.getLast?, Text.isBlank d = false := by
      intro d hd
      exact last d (by rw [List.getLast?_cons, hd]; rfl)
    cases hc : Text.isBlank c with
    | false =>
      obtain ⟨words, hscan, nonempty, hjoin⟩ := (ih ht hlast).1
      obtain ⟨word, others, rfl⟩ := List.exists_cons_of_ne_nil nonempty
      have hgrown : CutInto .inWord (c :: t) (Text.evened (c :: t)) := by
        refine ⟨(c :: word) :: others, ?_, List.cons_ne_nil _ _, ?_⟩
        · rw [scan, if_neg (Ne.symm hquote), hc, hscan]
          rfl
        · rw [Text.evened_cons_solid hc, ← hjoin]
          cases others with
          | nil => rfl
          | cons next others => rfl
      refine ⟨hgrown, fun _ => ?_⟩
      rw [List.dropWhile_cons_of_neg (by simp [hc]), CutInto, scan_between_cons hc]
      exact hgrown
    | true =>
      have nonblank : t ≠ [] := by
        rintro rfl
        exact Bool.noConfusion (hc.symm.trans (last c rfl))
      obtain ⟨words, hscan, nonempty, hjoin⟩ := (ih ht hlast).2 nonblank
      constructor
      · refine ⟨[] :: words, ?_, List.cons_ne_nil _ _, ?_⟩
        · rw [scan, if_neg (Ne.symm hquote), if_pos hc, hscan]
          rfl
        · obtain ⟨word, others, rfl⟩ := List.exists_cons_of_ne_nil nonempty
          rw [Text.evened_blank_cons hc, ← hjoin]
          rfl
      · intro _
        rw [List.dropWhile_cons_of_pos hc, CutInto, scan_blank hc]
        exact ⟨words, hscan, nonempty, hjoin⟩

/-- A text without quotes and without blanks at its ends is evened by cutting and joining. -/
theorem cutInto_evened (unquoted : '"' ∉ t) (nonempty : t ≠ [])
    (first : ∀ c ∈ t.head?, Text.isBlank c = false)
    (last : ∀ c ∈ t.getLast?, Text.isBlank c = false) : CutInto .between t (Text.evened t) := by
  have hcut := (scan_unquoted unquoted last).2 nonempty
  obtain ⟨c, t, rfl⟩ := List.exists_cons_of_ne_nil nonempty
  rwa [List.dropWhile_cons_of_neg (by simp [first c rfl])] at hcut

end Words

/-! ## Segments -/

namespace Path

open Text (evened evened_eq_solid solid_of_all)

theorem push_evened (stack : List Text) (segment : Text) :
    push (stack.map evened) (evened segment) = (push stack segment).map evened := by
  have hnil : evened segment = [] ↔ segment = [] :=
    evened_eq_solid (solid_of_all (by decide))
  have hhere : evened segment = here ↔ segment = here :=
    evened_eq_solid (solid_of_all (by decide))
  have habove : evened segment = above ↔ segment = above :=
    evened_eq_solid (solid_of_all (by decide))
  simp only [push, hnil, hhere, habove, List.length_map]
  split
  next => rfl
  next =>
    split
    next =>
      split
      next => exact List.map_tail.symm
      next => rfl
    next => rfl

theorem settle_map_evened (segments : List Text) :
    settle (segments.map evened) = (settle segments).map evened := by
  have hfold : ∀ stack : List Text, (segments.map evened).foldl push (stack.map evened) =
      (segments.foldl push stack).map evened := by
    induction segments with
    | nil => exact fun stack => rfl
    | cons segment segments ih =>
      intro stack
      rw [List.map_cons, List.foldl_cons, List.foldl_cons, push_evened, ih]
  rw [settle, settle, List.map_reverse]
  exact congrArg List.reverse (hfold [])

/-- A path may be evened if that does not change the segments that are left of it. -/
theorem canonical_evened {path : Text}
    (h : ∀ s ∈ settle (Text.split delimiter path), evened s = s) :
    canonical (evened path) = canonical path := by
  rw [canonical_eq_settle, canonical_eq_settle, Text.split_evened (by decide), settle_map_evened,
    List.map_congr_left h, List.map_id']

end Path

end DriveShell
