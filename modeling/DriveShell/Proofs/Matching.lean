import Mathlib.Data.List.Infix
import DriveShell.Phrase.Rule

/-!
# What patterns match

A table holds what the rest of a pattern captures at every suffix of a text.  `Pattern.run`
says the same of one suffix, with the rest of the pattern as a function: it tries the ways to
match one by one, those of higher rank first.  Every table is the table of such a function
(`table_tabulate`), so a search takes the first suffix at which `run` finds a way
(`search?_eq`).

Whether there is a way at all is a question about a language.  `Matches` relates a pattern to
the stretches that it matches, and a search succeeds exactly where such a stretch stands
(`isSome_search?_iff`).

From this follows a test for absence.  The `opening?` of a pattern is its longest beginning
that ends with a gap.  What matches an opening ends with a blank, so it cannot reach into a
word at the end of the text, whatever the letters of that word are.  If the opening does not
occur before the word, then the pattern does not occur in the text (`search?_append_solid`).
-/

namespace DriveShell

namespace MatchTable

/-- The table of what a function finds at every suffix of a text. -/
def tabulate (after : Text → Option Captures) (t : Text) : MatchTable := (suffixes t).map after

variable (after : Text → Option Captures)

@[simp] theorem tail_tabulate (c : Char) (t : Text) :
    (tabulate after (c :: t)).tail = tabulate after t := rfl

@[simp] theorem first_tabulate (t : Text) : first (tabulate after t) = after t := by
  cases t with
  | nil => rfl
  | cons c t => rfl

theorem suffixes_eq_tails (t : Text) : suffixes t = t.tails := by
  induction t with
  | nil => rfl
  | cons c t ih => rw [suffixes, ih, List.tails]

theorem mem_suffixes {s t : Text} : s ∈ suffixes t ↔ s <:+ t := by
  rw [suffixes_eq_tails, List.mem_tails]

end MatchTable

namespace Pattern

open MatchTable

/-! ## One suffix at a time -/

/-- What is found after one or more characters that pass a test.  More are preferred. -/
def longest {α : Type} (test : Char → Bool) (after : Text → Option α) : Text → Option α
  | [] => none
  | c :: rest => if test c then longest test after rest <|> after rest else none

/-- What is found after one letter. -/
def afterLetter (c : Char) (after : Text → Option Captures) : Text → Option Captures
  | [] => none
  | d :: rest => if isLetter c d then after rest else none

/-- What a pattern captures at the beginning of a text, with what follows it. -/
def run : Pattern → (Text → Option Captures) → Text → Option Captures
  | .nothing, after, t => after t
  | .letter c, after, t => afterLetter c after t
  | .gap, after, t => longest Text.isBlank after t
  | .capture, after, t =>
    (longest (· ≠ '\n') (fun stop => (after stop).map (stop, ·)) t).map
      fun (stop, captures) => ⟨t, stop⟩ :: captures
  | .next first second, after, t => first.run (second.run after) t
  | .either preferred other, after, t => preferred.run after t <|> other.run after t

section Tables

variable (after : Text → Option Captures) (t : Text)

theorem letterTable_tabulate (c : Char) :
    letterTable c t (tabulate after t) = tabulate ((letter c).run after) t := by
  induction t with
  | nil => rfl
  | cons d t ih =>
    rw [letterTable, tail_tabulate, ih, first_tabulate]
    rfl

theorem gapTable_tabulate : gapTable t (tabulate after t) = tabulate (gap.run after) t := by
  induction t with
  | nil => rfl
  | cons c t ih =>
    simp only [gapTable, tail_tabulate, ih, first_tabulate]
    rfl

theorem endTable_tabulate :
    endTable t (tabulate after t) =
      (suffixes t).map (longest (· ≠ '\n') fun stop => (after stop).map (stop, ·)) := by
  induction t with
  | nil => rfl
  | cons c t ih =>
    have hhead : ∀ found : Text → Option (Text × Captures),
        ((suffixes t).map found).head?.join = found t := by
      intro found
      cases t with
      | nil => rfl
      | cons d t => rfl
    simp only [endTable, tail_tabulate, ih, first_tabulate, hhead]
    by_cases hc : c = '\n'
    · simp [suffixes, longest, hc]
    · simp [suffixes, longest, hc]

theorem captureTable_tabulate :
    captureTable t (tabulate after t) = tabulate (capture.run after) t := by
  rw [captureTable, endTable_tabulate, List.zipWith_map_right, List.zipWith_self]
  rfl

/-- The table of a pattern is the table of its runs. -/
theorem table_tabulate (p : Pattern) :
    p.table t (tabulate after t) = tabulate (p.run after) t := by
  induction p generalizing after with
  | nothing => rfl
  | letter c => exact letterTable_tabulate after t c
  | gap => exact gapTable_tabulate after t
  | capture => exact captureTable_tabulate after t
  | next first second hfirst hsecond =>
    rw [table, hsecond, hfirst]
    rfl
  | either preferred other hpreferred hother =>
    rw [table, hpreferred, hother, tabulate, tabulate, List.zipWith_map, List.zipWith_self]
    rfl

end Tables

/-- A search takes the first suffix at which a run succeeds. -/
theorem search?_eq (p : Pattern) (t : Text) :
    p.search? t = (suffixes t).findSome? (p.run fun _ => some []) := by
  have htable : p.table t (everywhere t) = tabulate (p.run fun _ => some []) t :=
    table_tabulate _ t p
  rw [search?, htable, tabulate, List.findSome?_map]
  rfl

/-- A pattern that matches at the beginning of a text is found there. -/
theorem search?_of_run {p : Pattern} {t : Text} {captures : Captures}
    (h : p.run (fun _ => some []) t = some captures) : p.search? t = some captures := by
  rw [search?_eq]
  cases t with
  | nil => simp [suffixes, h]
  | cons c t => simp [suffixes, h]

/-! ## The language of a pattern -/

/-- The stretches of text that a pattern matches. -/
inductive Matches : Pattern → Text → Prop
  | nothing : Matches .nothing []
  | letter {c d : Char} : isLetter c d = true → Matches (.letter c) [d]
  | gap {blanks : Text} :
    blanks ≠ [] → (∀ c ∈ blanks, Text.isBlank c = true) → Matches .gap blanks
  | capture {stretch : Text} :
    stretch ≠ [] → (∀ c ∈ stretch, c ≠ '\n') → Matches .capture stretch
  | next {first second : Pattern} {u v : Text} :
    Matches first u → Matches second v → Matches (.next first second) (u ++ v)
  | preferred {preferred other : Pattern} {u : Text} :
    Matches preferred u → Matches (.either preferred other) u
  | other {preferred other : Pattern} {u : Text} :
    Matches other u → Matches (.either preferred other) u

theorem isSome_longest {α : Type} (test : Char → Bool) (after : Text → Option α) (t : Text) :
    (longest test after t).isSome = true ↔
      ∃ u rest, t = u ++ rest ∧ u ≠ [] ∧ (∀ c ∈ u, test c = true) ∧ (after rest).isSome = true := by
  induction t with
  | nil =>
    refine iff_of_false Bool.false_ne_true fun ⟨u, rest, ht, hu, _⟩ => ?_
    exact hu (List.append_eq_nil_iff.1 ht.symm).1
  | cons c t ih =>
    cases hc : test c with
    | false =>
      refine iff_of_false (by simp [longest, hc]) fun ⟨u, rest, ht, hu, htest, _⟩ => ?_
      obtain ⟨d, u, rfl⟩ := List.exists_cons_of_ne_nil hu
      cases ht
      simp [hc] at htest
    | true =>
      rw [longest, if_pos hc, Option.orElse_eq_orElse, Option.orElse_eq_or, Option.isSome_or,
        Bool.or_eq_true, ih]
      constructor
      · rintro (⟨u, rest, rfl, hu, htest, hafter⟩ | hafter)
        · exact ⟨c :: u, rest, rfl, List.cons_ne_nil _ _, List.forall_mem_cons.2 ⟨hc, htest⟩,
            hafter⟩
        · exact ⟨[c], t, rfl, List.cons_ne_nil _ _, List.forall_mem_singleton.2 hc, hafter⟩
      · rintro ⟨u, rest, ht, hu, htest, hafter⟩
        obtain ⟨d, u, rfl⟩ := List.exists_cons_of_ne_nil hu
        cases ht
        cases u with
        | nil => exact Or.inr hafter
        | cons e u =>
          exact Or.inl ⟨e :: u, rest, rfl, List.cons_ne_nil _ _, (List.forall_mem_cons.1 htest).2,
            hafter⟩

/-- A run succeeds exactly where the pattern matches a stretch and what follows succeeds
behind it. -/
theorem isSome_run_iff (p : Pattern) (after : Text → Option Captures) (t : Text) :
    (p.run after t).isSome = true ↔
      ∃ u rest, t = u ++ rest ∧ p.Matches u ∧ (after rest).isSome = true := by
  induction p generalizing after t with
  | nothing =>
    constructor
    · exact fun h => ⟨[], t, rfl, .nothing, h⟩
    · rintro ⟨u, rest, rfl, hu, h⟩
      cases hu
      exact h
  | letter c =>
    constructor
    · intro h
      cases t with
      | nil => cases h
      | cons d rest =>
        rw [run, afterLetter] at h
        split at h
        next hletter => exact ⟨[d], rest, rfl, .letter hletter, h⟩
        next => cases h
    · rintro ⟨u, rest, rfl, hu, h⟩
      cases hu with
      | letter hletter =>
        rw [List.singleton_append, run, afterLetter, if_pos hletter]
        exact h
  | gap =>
    rw [run, isSome_longest]
    constructor
    · rintro ⟨u, rest, rfl, hu, hblank, h⟩
      exact ⟨u, rest, rfl, .gap hu hblank, h⟩
    · rintro ⟨u, rest, rfl, hmatch, h⟩
      cases hmatch with
      | gap hu hblank => exact ⟨u, rest, rfl, hu, hblank, h⟩
  | capture =>
    rw [run, Option.isSome_map, isSome_longest]
    constructor
    · rintro ⟨u, rest, rfl, hu, hline, h⟩
      rw [Option.isSome_map] at h
      exact ⟨u, rest, rfl, .capture hu (by simpa using hline), h⟩
    · rintro ⟨u, rest, rfl, hmatch, h⟩
      cases hmatch with
      | capture hu hline =>
        exact ⟨u, rest, rfl, hu, by simpa using hline, by rwa [Option.isSome_map]⟩
  | next first second hfirst hsecond =>
    rw [run, hfirst]
    constructor
    · rintro ⟨u, rest, rfl, hu, h⟩
      obtain ⟨v, rest, rfl, hv, hafter⟩ := (hsecond after rest).1 h
      exact ⟨u ++ v, rest, (List.append_assoc u v rest).symm, .next hu hv, hafter⟩
    · rintro ⟨_, rest, rfl, hmatch, hafter⟩
      cases hmatch with
      | @next _ _ u v hu hv =>
        exact ⟨u, v ++ rest, List.append_assoc u v rest, hu,
          (hsecond after (v ++ rest)).2 ⟨v, rest, rfl, hv, hafter⟩⟩
  | either preferred other hpreferred hother =>
    rw [run, Option.orElse_eq_orElse, Option.orElse_eq_or, Option.isSome_or, Bool.or_eq_true,
      hpreferred, hother]
    constructor
    · rintro (⟨u, rest, rfl, hu, h⟩ | ⟨u, rest, rfl, hu, h⟩)
      · exact ⟨u, rest, rfl, .preferred hu, h⟩
      · exact ⟨u, rest, rfl, .other hu, h⟩
    · rintro ⟨u, rest, rfl, hmatch, h⟩
      cases hmatch with
      | preferred hu => exact Or.inl ⟨u, rest, rfl, hu, h⟩
      | other hu => exact Or.inr ⟨u, rest, rfl, hu, h⟩

/-- A search succeeds exactly if some stretch of the text is matched. -/
theorem isSome_search?_iff (p : Pattern) (t : Text) :
    (p.search? t).isSome = true ↔ ∃ before u after, t = before ++ (u ++ after) ∧ p.Matches u := by
  rw [search?_eq, List.isSome_findSome?, List.any_eq_true]
  constructor
  · rintro ⟨start, hstart, hrun⟩
    obtain ⟨before, rfl⟩ := mem_suffixes.1 hstart
    obtain ⟨u, after, rfl, hu, -⟩ := (isSome_run_iff p _ _).1 hrun
    exact ⟨before, u, after, rfl, hu⟩
  · rintro ⟨before, u, after, rfl, hu⟩
    exact ⟨u ++ after, mem_suffixes.2 ⟨before, rfl⟩,
      (isSome_run_iff p _ _).2 ⟨u, after, rfl, hu, rfl⟩⟩

/-! ## Openings -/

/-- The longest beginning of a pattern that ends with a gap, if there is a gap outside of
choices. -/
def opening? : Pattern → Option Pattern
  | .gap => some .gap
  | .next first second =>
    match second.opening? with
    | some opening => some (.next first opening)
    | none => first.opening?
  | .nothing | .letter _ | .capture | .either _ _ => none

theorem matches_opening {p opening : Pattern} (h : p.opening? = some opening) {u : Text}
    (hu : p.Matches u) : ∃ v w, u = v ++ w ∧ opening.Matches v := by
  induction p generalizing opening u with
  | nothing => cases h
  | letter c => cases h
  | gap =>
    cases h
    exact ⟨u, [], (List.append_nil u).symm, hu⟩
  | capture => cases h
  | either preferred other _ _ => cases h
  | next first second hfirst hsecond =>
    cases hu with
    | @next _ _ u v hu hv =>
      rw [opening?] at h
      -- The last gap is in the second pattern, or else in the first.
      split at h
      next later hlater =>
        cases h
        obtain ⟨begun, w, rfl, hbegun⟩ := hsecond hlater hv
        exact ⟨u ++ begun, w, (List.append_assoc u begun w).symm, .next hu hbegun⟩
      next =>
        obtain ⟨begun, w, rfl, hbegun⟩ := hfirst h hu
        exact ⟨begun, w ++ v, List.append_assoc begun w v, hbegun⟩

/-- What matches an opening ends with a blank. -/
theorem getLast?_opening {p opening : Pattern} (h : p.opening? = some opening) {u : Text}
    (hu : opening.Matches u) : ∃ c ∈ u.getLast?, Text.isBlank c = true := by
  induction p generalizing opening u with
  | nothing => cases h
  | letter c => cases h
  | gap =>
    cases h
    cases hu with
    | gap nonempty hblank =>
      exact ⟨u.getLast nonempty, List.getLast?_eq_some_getLast nonempty,
        hblank _ (List.getLast_mem nonempty)⟩
  | capture => cases h
  | either preferred other _ _ => cases h
  | next first second hfirst hsecond =>
    rw [opening?] at h
    split at h
    next later hlater =>
      cases h
      cases hu with
      | next _ hv =>
        obtain ⟨c, hc, hblank⟩ := hsecond hlater hv
        exact ⟨c, List.mem_getLast?_append_of_mem_getLast? hc, hblank⟩
    next => exact hfirst h hu

/-- A beginning that ends with a blank does not reach into a word at the end. -/
theorem prefix_of_getLast?_blank {lead word u rest : Text} (h : lead ++ word = u ++ rest)
    (solid : ∀ c ∈ word, Text.isBlank c = false) {c : Char} (hc : c ∈ u.getLast?)
    (blank : Text.isBlank c = true) : u <+: lead := by
  rcases List.append_eq_append_iff.1 h with ⟨part, rfl, rfl⟩ | ⟨between, rfl, -⟩
  · cases hlast : part.getLast? with
    | none =>
      rw [List.getLast?_eq_none_iff.1 hlast, List.append_nil]
    | some d =>
      have hsame : d = c := Option.mem_unique (List.mem_getLast?_append_of_mem_getLast? hlast) hc
      have hsolid : Text.isBlank d = false :=
        solid d (List.mem_append_left _ (List.mem_of_getLast? hlast))
      rw [hsame, blank] at hsolid
      cases hsolid
  · exact List.prefix_append u between

/-- If the opening of a pattern does not occur before a word at the end of a text, then the
pattern does not occur in the text, whatever the word is. -/
theorem search?_append_solid {p opening : Pattern} {lead word : Text}
    (h : p.opening? = some opening) (absent : opening.search? lead = none)
    (solid : ∀ c ∈ word, Text.isBlank c = false) : p.search? (lead ++ word) = none := by
  by_contra hfound
  obtain ⟨before, u, after, htext, hu⟩ :=
    (isSome_search?_iff p _).1 (Option.isSome_iff_ne_none.2 hfound)
  obtain ⟨v, w, rfl, hv⟩ := matches_opening h hu
  obtain ⟨c, hc, hblank⟩ := getLast?_opening h hv
  -- Up to the end of the opening, the text is a part of what stands before the word.
  rw [List.append_assoc, ← List.append_assoc before v] at htext
  obtain ⟨between, rfl⟩ :=
    prefix_of_getLast?_blank htext solid (List.mem_getLast?_append_of_mem_getLast? hc) hblank
  have hsome := (isSome_search?_iff opening _).2 ⟨before, v, between, List.append_assoc .., hv⟩
  rw [absent] at hsome
  cases hsome

/-! ## Matching a phrase in its own words -/

/-- The first way in which a pattern matches takes a stretch, wherever that stands. -/
def Takes (p : Pattern) (u : Text) : Prop := ∀ after t, p.run after (u ++ t) = after t

/-- A word of small letters takes itself. -/
theorem takes_word {letters : Text} (small : letters.all (fun c => isLetter c c) = true) :
    (word letters).Takes letters := by
  intro after t
  induction letters with
  | nil => rfl
  | cons c letters ih =>
    rw [List.all_cons, Bool.and_eq_true] at small
    obtain ⟨hc, hletters⟩ := small
    have hrest : (word letters).run after (letters ++ t) = after t := ih hletters
    rw [List.cons_append, ← hrest]
    exact if_pos hc

section Solid

variable {after : Text → Option Captures} {t : Text} {captures : Captures}

/-- A gap in front of something solid takes a single blank. -/
theorem run_gap (solid : ∀ c ∈ t.head?, Text.isBlank c = false) :
    gap.run after (' ' :: t) = after t := by
  have hnone : longest Text.isBlank after t = none := by
    cases t with
    | nil => rfl
    | cons c t => simp [longest, solid c rfl]
  have hblank : Text.isBlank ' ' = true := by decide
  rw [run, longest, if_pos hblank, hnone]
  rfl

/-- The first choice of an opener is taken, and then a gap. -/
theorem run_opener {p : Pattern} {u : Text} (h : p.Takes u) (others : List Pattern)
    {rest : List Pattern} (solid : ∀ c ∈ t.head?, Text.isBlank c = false)
    (hrest : (inOrder rest).run after t = some captures) :
    (inOrder (oneOf p others :: .gap :: rest)).run after (u ++ ' ' :: t) = some captures := by
  have hfirst : p.run ((inOrder (.gap :: rest)).run after) (u ++ ' ' :: t) = some captures := by
    rw [h]
    exact (run_gap solid).trans hrest
  cases others with
  | nil => exact hfirst
  | cons other others =>
    change (p.run ((inOrder (.gap :: rest)).run after) (u ++ ' ' :: t) <|> _) = _
    rw [hfirst]
    rfl

/-- A capture takes the rest of a line. -/
theorem run_capture (nonempty : t ≠ []) (line : ∀ c ∈ t, c ≠ '\n')
    (h : after [] = some captures) :
    capture.run after t = some (⟨t, []⟩ :: captures) := by
  have hlongest :
      longest (· ≠ '\n') (fun stop => (after stop).map (stop, ·)) t = some ([], captures) := by
    induction t with
    | nil => exact absurd rfl nonempty
    | cons c t ih =>
      obtain ⟨hc, hline⟩ := List.forall_mem_cons.1 line
      rw [longest, if_pos (by simpa using hc)]
      cases t with
      | nil =>
        rw [longest, h]
        rfl
      | cons d t =>
        rw [ih (List.cons_ne_nil d t) hline]
        rfl
  rw [run, hlongest, Option.map_some]

end Solid

end Pattern

/-! ## The first rule that fits -/

namespace Rule

/-- A rule is taken if it fits and the openings of all rules before it do not occur before the
word at the end. -/
theorem first?_append_solid {lead word : Text} {n : Nat} {rule : Rule} {captures : Captures}
    (h : all[n]? = some rule)
    (absent : ∀ other ∈ all.take n,
      other.pattern.opening?.any (fun opening => opening.search? lead = none) = true)
    (solid : ∀ c ∈ word, Text.isBlank c = false)
    (found : rule.pattern.search? (lead ++ word) = some captures) :
    first? (lead ++ word) = some (rule, captures) := by
  obtain ⟨hn, hrule⟩ := List.getElem?_eq_some_iff.1 h
  have hall : all = all.take n ++ rule :: all.drop (n + 1) := by
    rw [← hrule, List.getElem_cons_drop, List.take_append_drop]
  have hnone : (all.take n).findSome? (fun rule =>
      (rule.pattern.search? (lead ++ word)).map (rule, ·)) = none := by
    rw [List.findSome?_eq_none_iff]
    intro other hother
    obtain ⟨opening, hopening, hsearch⟩ := (Option.any_eq_true _ _).1 (absent other hother)
    rw [Pattern.search?_append_solid hopening (of_decide_eq_true hsearch) solid, Option.map_none]
  rw [first?, hall, List.findSome?_append, hnone, Option.none_or, List.findSome?_cons, found]
  rfl

end Rule

end DriveShell
