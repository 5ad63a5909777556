import Mathlib.Data.List.TakeWhile
import DriveShell.Phrase.Interpretation
import DriveShell.Proofs.WrittenWords

/-!
# Blanks around a text

Blanks around a text make no difference to how it is read.  A text is `Padded` from another
one if it has only blanks more, before it and after it.  Then both are trimmed to the same
text, have the same first word, and are cut into the same words as command lines.  The last
also holds where a quote stays open, since a blank does not close it.

A text is padded from its trimmed form (`padded_trim`).  So everything that is read from a
text can be read from the trimmed text, and trimming twice is trimming once.
-/

namespace DriveShell

namespace Text

variable {s t : Text}

/-- A text has only blanks more than another one, before it and after it. -/
def Padded (s t : Text) : Prop :=
  ∃ before after, t = before ++ (s ++ after) ∧ (∀ c ∈ before, isBlank c = true) ∧
    ∀ c ∈ after, isBlank c = true

theorem dropEndWhile_append {test : Char → Bool} {after : Text} (h : ∀ c ∈ after, test c = true)
    (t : Text) : dropEndWhile test (t ++ after) = dropEndWhile test t := by
  rw [dropEndWhile, List.reverse_append, List.dropWhile_append_of_pos (by simpa using h),
    dropEndWhile]

/-- What a test drops at the end passes it. -/
theorem exists_eq_dropEndWhile_append (test : Char → Bool) (t : Text) :
    ∃ after, t = dropEndWhile test t ++ after ∧ ∀ c ∈ after, test c = true := by
  refine ⟨(t.reverse.takeWhile test).reverse, ?_, fun c hc => ?_⟩
  · rw [dropEndWhile, ← List.reverse_append, List.takeWhile_append_dropWhile, List.reverse_reverse]
  · exact List.mem_takeWhile_imp (List.mem_reverse.1 hc)

theorem padded_trim (t : Text) : Padded (trim t) t := by
  obtain ⟨after, hafter, hblank⟩ := exists_eq_dropEndWhile_append isBlank (t.dropWhile isBlank)
  refine ⟨t.takeWhile isBlank, after, ?_, fun c hc => List.mem_takeWhile_imp hc, hblank⟩
  rw [trim, ← hafter, List.takeWhile_append_dropWhile]

/-! ## What padding does not change -/

/-- Behind a text that is not blank, blanks stay when those before it are dropped. -/
theorem dropWhile_append_blanks {after : Text} (h : ∀ c ∈ after, isBlank c = true) (t : Text) :
    t.dropWhile isBlank = [] ∧ (t ++ after).dropWhile isBlank = [] ∨
      t.dropWhile isBlank ≠ [] ∧
        (t ++ after).dropWhile isBlank = t.dropWhile isBlank ++ after := by
  rw [List.dropWhile_append]
  split
  next hempty => exact Or.inl ⟨List.isEmpty_iff.1 hempty, List.dropWhile_eq_nil_iff.2 h⟩
  next hempty => exact Or.inr ⟨fun hnil => hempty (List.isEmpty_iff.2 hnil), rfl⟩

theorem Padded.trim_eq (h : Padded s t) : trim t = trim s := by
  obtain ⟨before, after, rfl, hbefore, hafter⟩ := h
  rw [trim, trim, List.dropWhile_append_of_pos hbefore]
  rcases dropWhile_append_blanks hafter s with ⟨hshort, hlong⟩ | ⟨-, hlong⟩
  · rw [hlong, hshort]
  · rw [hlong, dropEndWhile_append hafter]

theorem trim_trim (t : Text) : trim (trim t) = trim t := (padded_trim t).trim_eq.symm

theorem takeWhile_append_blanks {after : Text} (h : ∀ c ∈ after, isBlank c = true) (t : Text) :
    (t ++ after).takeWhile (!isBlank ·) = t.takeWhile (!isBlank ·) := by
  induction t with
  | nil =>
    cases after with
    | nil => rfl
    | cons c after =>
      have hc : isBlank c = true := (List.forall_mem_cons.1 h).1
      rw [List.nil_append, List.takeWhile_cons_of_neg (by simp [hc]), List.takeWhile_nil]
  | cons c t ih => rw [List.cons_append, List.takeWhile_cons, List.takeWhile_cons, ih]

theorem firstWord?_eq (t : Text) : firstWord? t =
    if t.dropWhile isBlank = [] then none
    else some ((t.dropWhile isBlank).takeWhile (!isBlank ·)) := by
  rw [firstWord?]
  cases t.dropWhile isBlank with
  | nil => rfl
  | cons c rest => rfl

theorem Padded.firstWord?_eq (h : Padded s t) : firstWord? t = firstWord? s := by
  obtain ⟨before, after, rfl, hbefore, hafter⟩ := h
  rw [Text.firstWord?_eq, Text.firstWord?_eq, List.dropWhile_append_of_pos hbefore]
  rcases dropWhile_append_blanks hafter s with ⟨hshort, hlong⟩ | ⟨hshort, hlong⟩
  · rw [hlong, hshort]
  · rw [hlong, takeWhile_append_blanks hafter, if_neg (by simp [hshort]), if_neg hshort]

theorem firstWord?_trim (t : Text) : firstWord? (trim t) = firstWord? t :=
  (padded_trim t).firstWord?_eq.symm

/-! ## Texts that need no trimming -/

/-- The test runs, which the statement about all characters does not. -/
theorem solid_of_all (h : t.all (!isBlank ·) = true) : ∀ c ∈ t, isBlank c = false := by
  simpa using h

theorem solid_head?_append (nonempty : t ≠ []) (solid : ∀ c ∈ t, isBlank c = false) (rest : Text) :
    ∀ c ∈ (t ++ rest).head?, isBlank c = false := by
  rw [List.head?_append_of_ne_nil _ nonempty]
  exact fun c hc => solid c (List.mem_of_mem_head? hc)

/-- A text with no blank at either end is trimmed. -/
theorem trim_eq_self (first : ∀ c ∈ t.head?, isBlank c = false)
    (last : ∀ c ∈ t.getLast?, isBlank c = false) : trim t = t := by
  have hstart : t.dropWhile isBlank = t := by
    cases t with
    | nil => rfl
    | cons c t => rw [List.dropWhile_cons_of_neg (by simp [first c rfl])]
  have hend : t.reverse.dropWhile isBlank = t.reverse := by
    cases hreverse : t.reverse with
    | nil => rfl
    | cons c rest =>
      have hlast : t.getLast? = some c := by rw [List.getLast?_eq_head?_reverse, hreverse]; rfl
      rw [List.dropWhile_cons_of_neg (by simp [last c hlast])]
  rw [trim, hstart, dropEndWhile, hend, List.reverse_reverse]

/-- A text that begins with a word where it ends has that first word. -/
theorem firstWord?_append {word rest : Text} (nonempty : word ≠ [])
    (solid : ∀ c ∈ word, isBlank c = false) (parted : Words.Parted rest) :
    firstWord? (word ++ rest) = some word := by
  obtain ⟨c, others, rfl⟩ := List.exists_cons_of_ne_nil nonempty
  have hc : isBlank c = false := (List.forall_mem_cons.1 solid).1
  have hrest : rest.takeWhile (!isBlank ·) = [] := by
    cases rest with
    | nil => rfl
    | cons d rest => rw [List.takeWhile_cons_of_neg (by simp [parted d rfl])]
  rw [firstWord?_eq, List.cons_append, List.dropWhile_cons_of_neg (by simp [hc]),
    if_neg (List.cons_ne_nil _ _), ← List.cons_append,
    List.takeWhile_append_of_pos (fun d hd => by simp [solid d hd]), hrest, List.append_nil]

theorem trim_ne_nil_of_firstWord? {word : Text} (h : firstWord? t = some word) : trim t ≠ [] := by
  intro hnil
  rw [← firstWord?_trim, hnil] at h
  cases h

end Text

/-! ## Command lines -/

namespace Words

theorem scan_between_blanks {after : Text} (h : ∀ c ∈ after, Text.isBlank c = true) :
    scan .between after = some [] := by
  induction after with
  | nil => rfl
  | cons c after ih =>
    obtain ⟨hc, hafter⟩ := List.forall_mem_cons.1 h
    rw [scan_blank hc, ih hafter]

/-- Blanks do not close a quote. -/
theorem scan_inQuotes_blanks {after : Text} (h : ∀ c ∈ after, Text.isBlank c = true) :
    scan .inQuotes after = none := by
  induction after with
  | nil => rfl
  | cons c after ih =>
    obtain ⟨hc, hafter⟩ := List.forall_mem_cons.1 h
    rw [scan, if_neg (ne_quote_of_isBlank hc), ih hafter]
    rfl

/-- Blanks at the end of a line are read in every mode like its end. -/
theorem scan_blanks {after : Text} (h : ∀ c ∈ after, Text.isBlank c = true) (mode : Mode) :
    scan mode after = scan mode [] := by
  have hparted : Parted after := fun c hc => h c (List.mem_of_mem_head? hc)
  cases mode with
  | between => exact scan_between_blanks h
  | inWord => rw [scan_inWord_of_parted hparted, scan_between_blanks h]; rfl
  | inQuotes => exact scan_inQuotes_blanks h

/-- Blanks at the end make no difference, in whatever mode the line begins. -/
theorem scan_append_blanks {after : Text} (h : ∀ c ∈ after, Text.isBlank c = true) (mode : Mode)
    (line : Text) : scan mode (line ++ after) = scan mode line := by
  induction line generalizing mode with
  | nil => rw [List.nil_append, scan_blanks h]
  | cons c line ih =>
    cases mode with
    | between => simp only [List.cons_append, scan, ih]
    | inWord => simp only [List.cons_append, scan, ih]
    | inQuotes => simp only [List.cons_append, scan, ih]

theorem ofLine_padded {line padded : Text} (h : Text.Padded line padded) :
    ofLine padded = ofLine line := by
  obtain ⟨before, after, rfl, hbefore, hafter⟩ := h
  have hscan : scan .between (before ++ (line ++ after)) = scan .between line := by
    induction before with
    | nil => rw [List.nil_append, scan_append_blanks hafter]
    | cons c before ih =>
      obtain ⟨hc, hrest⟩ := List.forall_mem_cons.1 hbefore
      rw [List.cons_append, scan_blank hc, ih hrest]
  rw [ofLine, ofLine, hscan]

theorem ofLine_trim (line : Text) : ofLine (Text.trim line) = ofLine line :=
  (ofLine_padded (Text.padded_trim line)).symm

end Words

/-! ## Inputs -/

theorem Vocabulary.opensWithVerb_trim (input : Text) :
    opensWithVerb (Text.trim input) = opensWithVerb input := by
  rw [opensWithVerb, opensWithVerb, Text.firstWord?_trim]

theorem Interpretation.ofInput_trim (home input : Text) :
    ofInput home (Text.trim input) = ofInput home input := by
  rw [ofInput, ofInput, Text.trim_trim]

end DriveShell
