import Mathlib.Data.List.Basic
import DriveShell.Text.Basic

/-!
# Splitting and joining

`Text.split` is the split of the standard library at one character, so the two
round trips with `Text.join` are those of the library.  What is added here is how
a text falls apart at a separator in its middle, that a piece holds no separator,
and that a text begins as its first piece does and ends as its last.
-/

namespace DriveShell

namespace Text

/-! ## The split of the standard library -/

/-- The pieces of a text, with its first character moved into the first piece or cut off. -/
theorem split_cons (separator c : Char) (t : Text) :
    split separator (c :: t) =
      if c = separator then [] :: split separator t
      else (split separator t).modifyHead (c :: ·) := by
  by_cases h : c = separator
  · simp [split, pieces, h]
  · simp [split, pieces, h]

theorem split_eq_splitOn (separator : Char) (t : Text) :
    split separator t = List.splitOn separator t := by
  induction t with
  | nil => rw [split_nil, List.splitOn_nil]
  | cons c t ih =>
    rw [split_cons, List.splitOn_cons_eq_if_modifyHead, ih]
    by_cases h : c = separator
    · rw [if_pos h, if_pos (beq_iff_eq.2 h)]
    · rw [if_neg h, if_neg (by simpa using h)]

/-- A text is the join of its pieces. -/
theorem join_split (separator : Char) (t : Text) : join [separator] (split separator t) = t := by
  rw [split_eq_splitOn]
  exact List.intercalate_splitOn separator

/-- Texts without the separator are the pieces of their join. -/
theorem split_join {separator : Char} {texts : List Text} (nonempty : texts ≠ [])
    (plain : ∀ t ∈ texts, separator ∉ t) : split separator (join [separator] texts) = texts := by
  rw [split_eq_splitOn]
  exact List.splitOn_intercalate separator plain nonempty

/-- A text without the separator is one piece. -/
theorem split_plain {separator : Char} {t : Text} (plain : separator ∉ t) :
    split separator t = [t] := by
  have hsplit : split separator (join [separator] [t]) = [t] :=
    split_join (List.cons_ne_nil _ _) (List.forall_mem_singleton.2 plain)
  rwa [join, List.intercalate_singleton] at hsplit

/-- A separator in the middle parts the pieces. -/
theorem split_append (separator : Char) (s t : Text) :
    split separator (s ++ separator :: t) = split separator s ++ split separator t := by
  simp only [split_eq_splitOn]
  exact List.splitOn_append_cons_self s t

/-- No piece holds the separator. -/
theorem notMem_of_mem_split {separator : Char} {t piece : Text}
    (h : piece ∈ split separator t) : separator ∉ piece := by
  induction t generalizing piece with
  | nil =>
    rw [split_nil, List.mem_singleton] at h
    simp [h]
  | cons c t ih =>
    rw [split_cons] at h
    by_cases hc : c = separator
    · rw [if_pos hc, List.mem_cons] at h
      rcases h with rfl | h
      · simp
      · exact ih h
    · rw [if_neg hc] at h
      cases hs : split separator t with
      | nil => exact absurd hs (split_ne_nil separator t)
      | cons first others =>
        rw [hs, List.modifyHead_cons, List.mem_cons] at h
        rcases h with rfl | h
        · have hfirst : separator ∉ first := ih (by simp [hs])
          simp [hfirst, Ne.symm hc]
        · exact ih (by simp [hs, h])

/-! ## Joins, piece by piece -/

@[simp] theorem join_nil (separator : Text) : join separator [] = [] := rfl

@[simp] theorem join_singleton (separator t : Text) : join separator [t] = t :=
  List.intercalate_singleton

theorem join_cons_cons (separator s t : Text) (texts : List Text) :
    join separator (s :: t :: texts) = s ++ separator ++ join separator (t :: texts) :=
  List.intercalate_cons_cons

/-- Between the texts of two lists there is one more separator. -/
theorem join_append (separator : Text) {texts more : List Text} (htexts : texts ≠ [])
    (hmore : more ≠ []) :
    join separator (texts ++ more) = join separator texts ++ separator ++ join separator more := by
  induction texts with
  | nil => exact absurd rfl htexts
  | cons s texts ih =>
    cases texts with
    | nil =>
      obtain ⟨t, more, rfl⟩ := List.exists_cons_of_ne_nil hmore
      rw [List.singleton_append, join_cons_cons, join_singleton]
    | cons r texts =>
      rw [List.cons_append, List.cons_append, join_cons_cons, join_cons_cons, ← List.cons_append,
        ih (by simp)]
      simp

/-- One more text at the end comes after one more separator. -/
theorem join_concat (separator t : Text) {texts : List Text} (nonempty : texts ≠ []) :
    join separator (texts ++ [t]) = join separator texts ++ separator ++ t := by
  rw [join_append separator nonempty (List.cons_ne_nil t []), join_singleton]

theorem mem_join {separator u : Text} {texts : List Text} {c : Char} (hu : u ∈ texts)
    (hc : c ∈ u) : c ∈ join separator texts := by
  induction texts with
  | nil => cases hu
  | cons t texts ih =>
    cases texts with
    | nil =>
      rw [join_singleton, ← List.mem_singleton.1 hu]
      exact hc
    | cons next texts =>
      rw [join_cons_cons]
      rcases List.mem_cons.1 hu with rfl | hu
      · simp [hc]
      · simp [ih hu]

/-- What holds of all characters of the separator and of the texts holds of those of the join. -/
theorem forall_mem_join {p : Char → Prop} {separator : Text} {texts : List Text}
    (hseparator : ∀ c ∈ separator, p c) (htexts : ∀ t ∈ texts, ∀ c ∈ t, p c) :
    ∀ c ∈ join separator texts, p c := by
  induction texts with
  | nil => exact List.forall_mem_nil _
  | cons t texts ih =>
    obtain ⟨ht, hrest⟩ := List.forall_mem_cons.1 htexts
    cases texts with
    | nil => rwa [join_singleton]
    | cons next texts =>
      rw [join_cons_cons]
      exact List.forall_mem_append.2 ⟨List.forall_mem_append.2 ⟨ht, hseparator⟩, ih hrest⟩

theorem head?_join {separator t : Text} {c : Char} (h : t.head? = some c)
    (texts : List Text) : (join separator (t :: texts)).head? = some c := by
  cases t with
  | nil => cases h
  | cons d t =>
    cases texts with
    | nil => rwa [join_singleton]
    | cons next texts => rwa [join_cons_cons]

/-! ## The ends of a text -/

/-- A text begins with a separator, or as its first piece does. -/
theorem head?_pieces (separator : Char) {t : Text} {c : Char} (h : t.head? = some c) :
    c = separator ∨ (pieces separator t).1.head? = some c := by
  cases t with
  | nil => cases h
  | cons d t =>
    cases h
    by_cases hc : c = separator
    · exact Or.inl hc
    · right
      simp [pieces, hc]

/-- A text ends with a separator, or as its last piece does. -/
theorem getLast?_split (separator : Char) {t : Text} {c : Char} (h : t.getLast? = some c) :
    ∃ before last, split separator t = before ++ [last] ∧
      (c = separator ∨ last.getLast? = some c) := by
  obtain ⟨before, last, hsplit⟩ :=
    (List.eq_nil_or_concat' (split separator t)).resolve_left (split_ne_nil separator t)
  have hjoin := join_split separator t
  rw [hsplit] at hjoin
  refine ⟨before, last, hsplit, ?_⟩
  cases before with
  | nil =>
    rw [List.nil_append, join_singleton] at hjoin
    exact Or.inr (hjoin ▸ h)
  | cons piece before =>
    rw [join_concat _ _ (List.cons_ne_nil _ _)] at hjoin
    cases last with
    | nil =>
      rw [← hjoin, List.append_nil, List.getLast?_concat] at h
      exact Or.inl (Option.some.inj h).symm
    | cons d last =>
      rw [← hjoin, List.getLast?_append_of_ne_nil _ (List.cons_ne_nil _ _)] at h
      exact Or.inr h

end Text

end DriveShell
