import Mathlib.Data.List.Forall2
import Mathlib.Data.List.TakeWhile
import DriveShell.Command.Words
import DriveShell.Proofs.Splitting

/-!
# Words written on a line

A word can be written in double quotes, or bare if it is not empty and holds no blank.  In
both cases it holds no double quote itself.  `Spelled` says which texts spell a word, and
`Spread` which lines have some spellings on them: in order, with a blank between any two,
and with any further blanks around them.  A line of words spelled in any of these ways is
cut into these very words (`ofLine_spread`).

The scan reads a spelling up to its end and goes on between words, provided that the
spelling does end there, that is, that a blank or the end of the line follows
(`scan_spelled`).

So a line that begins with a bare word has that word first, no matter how it goes on
(`head?_of_firstWord`).  A line that begins with a quote says nothing of the kind: its
first run without blanks is no word.
-/

namespace DriveShell

namespace Words

/-- A word between double quotes. -/
def quoted (word : Text) : Text := '"' :: (word ++ ['"'])

/-- The texts that spell a word. -/
inductive Spelled : (word spelling : Text) → Prop
  | quoted {word : Text} : '"' ∉ word → Spelled word (quoted word)
  | bare {word : Text} :
    word ≠ [] → '"' ∉ word → (∀ c ∈ word, Text.isBlank c = false) → Spelled word word

/-- The rest of a line where a word ends: nothing, or a blank first. -/
def Parted (rest : Text) : Prop := ∀ c ∈ rest.head?, Text.isBlank c = true

/-- The lines on which some spellings stand. -/
inductive Spread : List Text → Text → Prop
  | nil : Spread [] []
  | blank {c : Char} {spellings : List Text} {line : Text} :
    Text.isBlank c = true → Spread spellings line → Spread spellings (c :: line)
  | spelling {spelling : Text} {spellings : List Text} {line : Text} :
    Parted line → Spread spellings line → Spread (spelling :: spellings) (spelling ++ line)

/-- Spellings with one space between neighbours are a line. -/
theorem spread_join (spellings : List Text) : Spread spellings (Text.join [' '] spellings) := by
  induction spellings with
  | nil => exact .nil
  | cons spelling spellings ih =>
    cases spellings with
    | nil =>
      have hlast : Spread [spelling] (spelling ++ []) := .spelling (by simp [Parted]) .nil
      rw [List.append_nil] at hlast
      rwa [Text.join_singleton]
    | cons next spellings =>
      have hnext : Spread (next :: spellings) (' ' :: Text.join [' '] (next :: spellings)) :=
        .blank (by decide) ih
      exact .spelling (by simp [Parted]; decide) hnext

/-! ## Reading a spelling -/

variable {word rest : Text}

theorem ne_quote_of_isBlank {c : Char} (h : Text.isBlank c = true) : c ≠ '"' := by
  rintro rfl
  exact absurd h (by decide)

/-- Where a word ends, the empty rest of it is cut off. -/
theorem scan_inWord_of_parted (h : Parted rest) :
    scan .inWord rest = (scan .between rest).map ([] :: ·) := by
  cases rest with
  | nil => rfl
  | cons c rest =>
    have hblank : Text.isBlank c = true := h c rfl
    have hquote := ne_quote_of_isBlank hblank
    rw [scan, scan, if_neg hquote, if_neg hquote, if_pos hblank, if_pos hblank]

theorem scan_inWord_append (unquoted : '"' ∉ word) (solid : ∀ c ∈ word, Text.isBlank c = false)
    (h : Parted rest) : scan .inWord (word ++ rest) = (scan .between rest).map (word :: ·) := by
  induction word with
  | nil => exact scan_inWord_of_parted h
  | cons c word ih =>
    obtain ⟨hc, hword⟩ := not_or.1 (mt List.mem_cons.2 unquoted)
    obtain ⟨hsolid, hrest⟩ := List.forall_mem_cons.1 solid
    rw [List.cons_append, scan, if_neg (Ne.symm hc), hsolid, ih hword hrest, Option.map_map]
    rfl

theorem scan_inQuotes_append (unquoted : '"' ∉ word) (h : Parted rest) :
    scan .inQuotes (word ++ '"' :: rest) = (scan .between rest).map (word :: ·) := by
  induction word with
  | nil => exact scan_inWord_of_parted h
  | cons c word ih =>
    obtain ⟨hc, hword⟩ := not_or.1 (mt List.mem_cons.2 unquoted)
    rw [List.cons_append, scan, if_neg (Ne.symm hc), ih hword, Option.map_map]
    rfl

/-- The modes in and between words differ only at a blank. -/
theorem scan_between_cons {c : Char} (solid : Text.isBlank c = false) (rest : Text) :
    scan .between (c :: rest) = scan .inWord (c :: rest) := by
  simp only [scan, solid, Bool.false_eq_true, if_false]

/-- A spelling is read as its word where it ends. -/
theorem scan_spelled {spelling : Text} (spelled : Spelled word spelling) (h : Parted rest) :
    scan .between (spelling ++ rest) = (scan .between rest).map (word :: ·) := by
  cases spelled with
  | quoted unquoted =>
    rw [quoted, List.cons_append, List.append_assoc, List.singleton_append, scan, if_pos rfl]
    exact scan_inQuotes_append unquoted h
  | bare nonempty unquoted solid =>
    cases word with
    | nil => exact absurd rfl nonempty
    | cons c word =>
      rw [List.cons_append, scan_between_cons (List.forall_mem_cons.1 solid).1]
      exact scan_inWord_append unquoted solid h

theorem scan_blank {c : Char} (h : Text.isBlank c = true) (line : Text) :
    scan .between (c :: line) = scan .between line := by
  rw [scan, if_neg (ne_quote_of_isBlank h), if_pos h]

/-! ## Reading a line -/

/-- A line of spelled words is cut into these words. -/
theorem ofLine_spread {words spellings : List Text} {line : Text} (h : Spread spellings line)
    (spelled : List.Forall₂ Spelled words spellings) : ofLine line = .ok words := by
  suffices hscan : scan .between line = some words by rw [ofLine, hscan]
  induction h generalizing words with
  | nil =>
    cases spelled
    rfl
  | blank hblank _ ih => rw [scan_blank hblank, ih spelled]
  | spelling parted _ ih =>
    cases spelled with
    | cons hword hwords => rw [scan_spelled hword parted, ih hwords, Option.map_some]

/-- Quoted words on a line. -/
theorem forall₂_quoted {words : List Text} (unquoted : ∀ w ∈ words, '"' ∉ w) :
    List.Forall₂ Spelled words (words.map quoted) :=
  List.forall₂_map_right_iff.2 (List.forall₂_same.2 fun w hw => .quoted (unquoted w hw))

/-! ## The first word, cut at blanks -/

/-- A line falls apart at its first word: blanks, the word, and a rest where it ends. -/
theorem eq_append_of_firstWord {line : Text} (h : Text.firstWord? line = some word) :
    ∃ blanks rest, line = blanks ++ (word ++ rest) ∧ (∀ c ∈ blanks, Text.isBlank c = true) ∧
      word ≠ [] ∧ (∀ c ∈ word, Text.isBlank c = false) ∧ Parted rest := by
  rw [Text.firstWord?] at h
  cases hdrop : line.dropWhile Text.isBlank with
  | nil =>
    rw [hdrop] at h
    cases h
  | cons c after =>
    rw [hdrop, Option.some.injEq] at h
    have hc : Text.isBlank c = false := by
      have hhead := List.head?_dropWhile_not Text.isBlank line
      rw [hdrop] at hhead
      simpa using hhead
    subst h
    refine ⟨line.takeWhile Text.isBlank, (c :: after).dropWhile (!Text.isBlank ·), ?_, ?_, ?_,
      ?_, ?_⟩
    · rw [List.takeWhile_append_dropWhile, ← hdrop, List.takeWhile_append_dropWhile]
    · exact fun d hd => List.mem_takeWhile_imp hd
    · rw [List.takeWhile_cons_of_pos (by simpa using hc)]
      exact List.cons_ne_nil _ _
    · exact fun d hd => by simpa using List.mem_takeWhile_imp hd
    · intro d hd
      have hhead := List.head?_dropWhile_not (!Text.isBlank ·) (c :: after)
      rw [Option.mem_def] at hd
      rw [hd] at hhead
      simpa using hhead

/-- If the first word of a line, cut at blanks, holds no quote, then it is the first word. -/
theorem head?_of_firstWord {line : Text} {words : List Text}
    (h : Text.firstWord? line = some word) (unquoted : '"' ∉ word)
    (hwords : ofLine line = .ok words) : words.head? = some word := by
  obtain ⟨blanks, rest, rfl, hblanks, nonempty, solid, parted⟩ := eq_append_of_firstWord h
  have hscan : scan .between (blanks ++ (word ++ rest)) = some words := by
    rw [ofLine] at hwords
    split at hwords
    next found hfound => rw [hfound, Except.ok.inj hwords]
    next => cases hwords
  have hskip : scan .between (blanks ++ (word ++ rest)) = scan .between (word ++ rest) := by
    clear h hwords hscan
    induction blanks with
    | nil => rfl
    | cons c blanks ih =>
      obtain ⟨hc, hblanks⟩ := List.forall_mem_cons.1 hblanks
      rw [List.cons_append, scan_blank hc, ih hblanks]
  rw [hskip, scan_spelled (.bare nonempty unquoted solid) parted, Option.map_eq_some_iff] at hscan
  obtain ⟨others, -, rfl⟩ := hscan
  rfl

end Words

end DriveShell
