import Mathlib.Algebra.Ring.Parity
import Mathlib.Tactic.Tauto
import DriveShell.Proofs.Trimming

/-!
# Open quotes

A scan of a command line is a machine with three states: between words, in a word, and in
quotes.  `Mode.after` is its next state and `emit` what a character adds to the words, so a
scan takes one step for each character (`scan_cons`).

A quote is the only character that leads into quotes or out of them
(`Mode.after_eq_inQuotes_iff`).  So the state in which a line ends is known from the number of
its quotes, and a line cannot be cut into words exactly if that number is odd.  No step puts a
quote into a word.

Other words can all be written.  They are spelled in quotes or, in most cases, bare, and they
stand on a line with blanks between them.  However this is done, the words are read back as
they were (`words_read_back`).
-/

namespace DriveShell

namespace Words

/-! ## One step of a scan -/

/-- Where a scan stands after a character. -/
def Mode.after (mode : Mode) (c : Char) : Mode :=
  if c = '"' then if mode = .inQuotes then .inWord else .inQuotes
  else if mode = .inQuotes then .inQuotes
  else if Text.isBlank c then .between else .inWord

/-- What a character adds to the words of the rest of a line: nothing, the end of a word, or
itself. -/
def emit (mode : Mode) (c : Char) : List Text → List Text :=
  if c = '"' then id
  else if mode ≠ .inQuotes ∧ Text.isBlank c = true then
    if mode = .inWord then ([] :: ·) else id
  else grow c

theorem scan_cons (mode : Mode) (c : Char) (rest : Text) :
    scan mode (c :: rest) = (scan (mode.after c) rest).map (emit mode c) := by
  by_cases hquote : c = '"'
  · cases mode with
    | between => simp [scan, Mode.after, emit, hquote]
    | inWord => simp [scan, Mode.after, emit, hquote]
    | inQuotes => simp [scan, Mode.after, emit, hquote]
  · cases mode with
    | between =>
      by_cases hblank : Text.isBlank c = true
      · simp [scan, Mode.after, emit, hquote, hblank]
      · simp [scan, Mode.after, emit, hquote, hblank]
    | inWord =>
      by_cases hblank : Text.isBlank c = true
      · simp [scan, Mode.after, emit, hquote, hblank]
      · simp [scan, Mode.after, emit, hquote, hblank]
    | inQuotes => simp [scan, Mode.after, emit, hquote]

/-- A quote leads out of quotes and otherwise into quotes.  No other character does either. -/
theorem Mode.after_eq_inQuotes_iff (mode : Mode) (c : Char) :
    mode.after c = .inQuotes ↔ (c = '"' ↔ mode ≠ .inQuotes) := by
  by_cases hquote : c = '"'
  · by_cases hmode : mode = .inQuotes
    · simp [after, hquote, hmode]
    · simp [after, hquote, hmode]
  · by_cases hmode : mode = .inQuotes
    · simp [after, hquote, hmode]
    · by_cases hblank : Text.isBlank c = true
      · simp [after, hquote, hmode, hblank]
      · simp [after, hquote, hmode, hblank]

theorem unquoted_emit {words : List Text} (h : ∀ w ∈ words, '"' ∉ w) (mode : Mode) (c : Char) :
    ∀ w ∈ emit mode c words, '"' ∉ w := by
  by_cases hquote : c = '"'
  · simpa [emit, hquote] using h
  · rw [emit, if_neg hquote]
    split
    next =>
      split
      next => exact List.forall_mem_cons.2 ⟨List.not_mem_nil, h⟩
      next => exact h
    next =>
      cases words with
      | nil => simpa [grow] using Ne.symm hquote
      | cons word words =>
        obtain ⟨hword, hwords⟩ := List.forall_mem_cons.1 h
        have hgrown : '"' ∉ c :: word := by simp [Ne.symm hquote, hword]
        exact List.forall_mem_cons.2 ⟨hgrown, hwords⟩

/-! ## Whole lines -/

/-- The rest of a line can be scanned if its quotes, together with one that is open, can be
paired. -/
theorem isSome_scan_iff (mode : Mode) (line : Text) :
    (scan mode line).isSome = true ↔ (Odd (line.count '"') ↔ mode = .inQuotes) := by
  induction line generalizing mode with
  | nil =>
    cases mode with
    | between => simp [scan]
    | inWord => simp [scan]
    | inQuotes => simp [scan]
  | cons c line ih =>
    rw [scan_cons, Option.isSome_map, ih, Mode.after_eq_inQuotes_iff]
    by_cases hquote : c = '"'
    · have hcount : (c :: line).count '"' = line.count '"' + 1 := by simp [hquote]
      rw [hcount, Nat.odd_add_one]
      tauto
    · have hcount : (c :: line).count '"' = line.count '"' := by simp [hquote]
      rw [hcount]
      tauto

/-- No word that a scan gives holds a quote. -/
theorem unquoted_of_scan {mode : Mode} {line : Text} {words : List Text}
    (h : scan mode line = some words) : ∀ w ∈ words, '"' ∉ w := by
  induction line generalizing mode words with
  | nil =>
    cases mode with
    | between =>
      cases h
      simp
    | inWord =>
      cases h
      simp
    | inQuotes => cases h
  | cons c line ih =>
    rw [scan_cons] at h
    obtain ⟨found, hfound, rfl⟩ := Option.map_eq_some_iff.1 h
    exact unquoted_emit (ih hfound) mode c

/-- A line is refused exactly if it holds an odd number of quotes. -/
theorem ofLine_eq_error_iff (line : Text) :
    ofLine line = .error .unterminatedQuote ↔ Odd (line.count '"') := by
  have hscan := isSome_scan_iff .between line
  rw [ofLine]
  cases hwords : scan .between line with
  | none => simpa [hwords] using hscan
  | some words => simpa [hwords] using hscan

/-- A line with an even number of quotes is cut into words without quotes. -/
theorem exists_ofLine {line : Text} (h : Even (line.count '"')) :
    ∃ words, ofLine line = .ok words ∧ ∀ w ∈ words, '"' ∉ w := by
  have hodd : ¬Odd (line.count '"') := Nat.not_odd_iff_even.2 h
  have hsome : (scan .between line).isSome = true := by simp [isSome_scan_iff, hodd]
  obtain ⟨words, hwords⟩ := Option.isSome_iff_exists.1 hsome
  refine ⟨words, ?_, unquoted_of_scan hwords⟩
  rw [ofLine, hwords]

/-! ## Lines with gaps -/

variable {spellings : List Text} {line : Text}

theorem spread_blanks {blanks : Text} (h : ∀ c ∈ blanks, Text.isBlank c = true)
    (spread : Spread spellings line) : Spread spellings (blanks ++ line) := by
  induction blanks with
  | nil => exact spread
  | cons c blanks ih =>
    obtain ⟨hc, hblanks⟩ := List.forall_mem_cons.1 h
    exact .blank hc (ih hblanks)

/-- Spellings, each with a gap of blanks behind it that may be empty only at the end, are a
line. -/
theorem spread_gaps {pieces : List (Text × Text)}
    (blank : ∀ piece ∈ pieces, ∀ c ∈ piece.2, Text.isBlank c = true)
    (apart : ∀ piece ∈ pieces.dropLast, piece.2 ≠ []) :
    Spread (pieces.map Prod.fst) (pieces.flatMap fun piece => piece.1 ++ piece.2) := by
  induction pieces with
  | nil => exact .nil
  | cons piece pieces ih =>
    obtain ⟨spelling, gap⟩ := piece
    obtain ⟨hgap, hblank⟩ := List.forall_mem_cons.1 blank
    have hrest : Spread (pieces.map Prod.fst)
        (pieces.flatMap fun piece => piece.1 ++ piece.2) := by
      refine ih hblank fun piece hpiece => apart piece ?_
      cases pieces with
      | nil => cases hpiece
      | cons next pieces => exact List.mem_cons_of_mem _ hpiece
    have hparted : Parted (gap ++ pieces.flatMap fun piece => piece.1 ++ piece.2) := by
      intro c hc
      cases gap with
      | cons d gap =>
        cases hc
        exact hgap c List.mem_cons_self
      | nil =>
        -- Only the last gap is empty, and nothing comes after it.
        cases pieces with
        | nil => cases hc
        | cons next pieces => exact absurd rfl (apart _ List.mem_cons_self)
    rw [List.map_cons, List.flatMap_cons, List.append_assoc]
    exact .spelling hparted (spread_blanks hgap hrest)

/-- Words without quotes are read back from every line on which each of them is spelled in
quotes, or bare if it is not empty and holds no blank, with blanks between any two spellings and
any further blanks around them.  A line is refused exactly if it holds an odd number of quotes,
and all other lines are cut into words without quotes. -/
theorem words_read_back :
    (∀ (lead : Text) (words : List Text) (pieces : List (Text × Text)),
      (∀ c ∈ lead, Text.isBlank c = true) →
      List.Forall₂ (fun word piece => Spelled word piece.1) words pieces →
      (∀ piece ∈ pieces, ∀ c ∈ piece.2, Text.isBlank c = true) →
      (∀ piece ∈ pieces.dropLast, piece.2 ≠ []) →
        ofLine (lead ++ pieces.flatMap fun piece => piece.1 ++ piece.2) = .ok words) ∧
    ∀ line : Text,
      (ofLine line = .error .unterminatedQuote ↔ Odd (line.count '"')) ∧
      (Even (line.count '"') → ∃ words, ofLine line = .ok words ∧ ∀ w ∈ words, '"' ∉ w) := by
  refine ⟨fun lead words pieces hlead hspelled hblank hapart => ?_,
    fun line => ⟨ofLine_eq_error_iff line, exists_ofLine⟩⟩
  refine ofLine_spread (spread_blanks hlead (spread_gaps hblank hapart)) ?_
  exact List.forall₂_map_right_iff.2 hspelled

/-- A bare word, an empty one and one with a blank, with blanks of several kinds around them, and
a line with a quote in the middle of a word. -/
theorem words_read_back_mixed :
    ofLine "\tcd  \"\"\u3000\"a b\"\n" = .ok ["cd", "", "a b"] ∧
      ofLine "say a\"b" = .error .unterminatedQuote ∧
      ∃ words, ofLine "a\"b c\"d" = .ok words ∧ ∀ w ∈ words, '"' ∉ w := by
  obtain ⟨hwritten, hlines⟩ := words_read_back
  refine ⟨?_, (hlines "say a\"b").1.2 (by decide), (hlines "a\"b c\"d").2 (by decide)⟩
  have hcd : Spelled "cd" "cd" := .bare (by decide) (by decide) (Text.solid_of_all (by decide))
  let pieces : List (Text × Text) := [("cd", "  "), (quoted "", "\u3000"), (quoted "a b", "\n")]
  have hpieces : List.Forall₂ (fun word piece => Spelled word piece.1) ["cd", "", "a b"] pieces :=
    .cons hcd (.cons (.quoted (by decide)) (.cons (.quoted (by decide)) .nil))
  have hgaps : pieces.all (fun piece => piece.2.all Text.isBlank) = true := by decide
  refine hwritten "\t" _ pieces (List.all_eq_true.1 (by decide)) hpieces (fun piece hpiece => ?_)
    (by decide)
  exact List.all_eq_true.1 (List.all_eq_true.1 hgaps piece hpiece)

end Words

end DriveShell
