import DriveShell.Proofs.Matching
import DriveShell.Proofs.Rereading

/-!
# Rules that are never taken

Of several rules that fit an input the first is taken, so a rule is hidden where an earlier one
fits as well.  The rule for showing a file hides three later ones altogether: those for the load,
for the memory, and for the tree.

All four begin with a word for showing and a gap.  Behind the gap the rule for showing a file
takes any character that does not end the line, and each of the others has a word there.  So
whatever one of the others matches begins with a stretch that the rule for showing a file matches
(`begins_shown`), and such a stretch occurs wherever the longer one does.

The verbs of the hidden rules still occur in command lines, but only where an input begins with
one.  That is no phrase then (`hidden_rules_not_taken`).
-/

namespace DriveShell

namespace Pattern

variable {p q : Pattern} {u t : Text}

/-! ## Stretches that begin with others -/

/-- Every stretch that a pattern matches begins with one that another pattern matches. -/
def Begins (p q : Pattern) : Prop := ∀ u, p.Matches u → ∃ v w, u = v ++ w ∧ q.Matches v

/-- Where a pattern occurs, a pattern that it begins with occurs too. -/
theorem Begins.isSome_search? (h : p.Begins q) (found : (p.search? t).isSome = true) :
    (q.search? t).isSome = true := by
  obtain ⟨before, u, after, rfl, hu⟩ := (isSome_search?_iff p t).1 found
  obtain ⟨v, w, rfl, hv⟩ := h u hu
  refine (isSome_search?_iff q _).2 ⟨before, v, w ++ after, ?_, hv⟩
  rw [List.append_assoc]

theorem matches_next_iff :
    (next p q).Matches t ↔ ∃ u v, t = u ++ v ∧ p.Matches u ∧ q.Matches v := by
  constructor
  · intro h
    cases h with
    | next hu hv => exact ⟨_, _, rfl, hu, hv⟩
  · rintro ⟨u, v, rfl, hu, hv⟩
    exact .next hu hv

theorem matches_oneOf_iff {preferred : Pattern} {others : List Pattern} :
    (oneOf preferred others).Matches u ↔ ∃ choice ∈ preferred :: others, choice.Matches u := by
  induction others generalizing preferred with
  | nil => simp [oneOf]
  | cons other others ih =>
    rw [List.exists_mem_cons_iff, ← ih]
    constructor
    · intro h
      cases h with
      | preferred h => exact Or.inl h
      | other h => exact Or.inr h
    · rintro (h | h)
      · exact .preferred h
      · exact .other h

theorem matches_anyWord_iff {preferred : Text} {others : List Text} :
    (anyWord preferred others).Matches u ↔ ∃ w ∈ preferred :: others, (word w).Matches u := by
  rw [anyWord, matches_oneOf_iff, ← List.map_cons]
  constructor
  · rintro ⟨_, hchoice, h⟩
    obtain ⟨w, hw, rfl⟩ := List.mem_map.1 hchoice
    exact ⟨w, hw, h⟩
  · rintro ⟨w, hw, h⟩
    exact ⟨word w, List.mem_map_of_mem hw, h⟩

/-! ## Words behind a gap -/

/-- A line break is no letter in another case. -/
theorem ne_newline_of_isLetter {c d : Char} (h : isLetter c d = true) (hc : c ≠ '\n') :
    d ≠ '\n' := by
  rintro rfl
  have hnewline : isLetter c '\n' = decide ('\n' = c) := by simp [isLetter]
  rw [hnewline] at h
  exact hc (of_decide_eq_true h).symm

/-- What matches a word begins with its first letter in some case. -/
theorem exists_cons_of_matches_word {letters : Text} (h : (word letters).Matches u) {c : Char}
    (hc : letters.head? = some c) : ∃ d v, u = d :: v ∧ isLetter c d = true := by
  obtain ⟨letters, rfl⟩ := List.head?_eq_some_iff.1 hc
  obtain ⟨first, v, rfl, hfirst, -⟩ := matches_next_iff.1 h
  cases hfirst with
  | letter hletter => exact ⟨_, v, rfl, hletter⟩

/-- A pattern of some openers, a gap, a word and anything begins with a pattern of at least these
openers, a gap, and a capture, with or without something between the last two. -/
theorem begins_shown {opener subject other : Text} {openers subjects others : List Text}
    (rest : List Pattern) (skipped : Pattern)
    (among : ∀ w ∈ opener :: openers, w ∈ other :: others)
    (solid : ∀ w ∈ subject :: subjects, w.head?.any (· ≠ '\n') = true) :
    (inOrder (anyWord opener openers :: .gap :: anyWord subject subjects :: rest)).Begins
      (inOrder [anyWord other others, .gap, perhaps skipped, .capture]) := by
  intro t h
  obtain ⟨shown, t, rfl, hshown, h⟩ := matches_next_iff.1 h
  obtain ⟨blanks, t, rfl, hblanks, h⟩ := matches_next_iff.1 h
  obtain ⟨named, t, rfl, hnamed, -⟩ := matches_next_iff.1 h
  obtain ⟨w, hw, hshown⟩ := matches_anyWord_iff.1 hshown
  obtain ⟨s, hs, hnamed⟩ := matches_anyWord_iff.1 hnamed
  obtain ⟨c, hc, hline⟩ := (Option.any_eq_true _ _).1 (solid s hs)
  obtain ⟨d, named, rfl, hletter⟩ := exists_cons_of_matches_word hnamed hc
  have hopener : (anyWord other others).Matches shown :=
    matches_anyWord_iff.2 ⟨w, among w hw, hshown⟩
  have hcapture : capture.Matches [d] :=
    .capture (List.cons_ne_nil _ _)
      (List.forall_mem_singleton.2 (ne_newline_of_isLetter hletter (of_decide_eq_true hline)))
  -- Nothing is skipped, and one character is captured.
  refine ⟨shown ++ (blanks ++ ([] ++ ([d] ++ []))), named ++ t, by simp, ?_⟩
  exact .next hopener (.next hblanks (.next (.other .nothing) (.next hcapture .nothing)))

end Pattern

/-! ## The first rule that fits -/

namespace Rule

variable {rule early : Rule} {input : Text} {captures : Captures}

/-- The pattern of a rule occurs in an input. -/
def Fits (rule : Rule) (input : Text) : Prop := (rule.pattern.search? input).isSome = true

theorem fits_of_first? (h : first? input = some (rule, captures)) : rule.Fits input := by
  obtain ⟨found, -, hsearch⟩ := List.exists_of_findSome?_eq_some h
  obtain ⟨_, hcaptures, hrule⟩ := Option.map_eq_some_iff.1 hsearch
  cases hrule
  rw [Fits, hcaptures, Option.isSome_some]

/-- No rule is taken behind one that fits. -/
theorem mem_take_of_fits {n : Nat} (hearly : all[n]? = some early) (fits : early.Fits input)
    (h : first? input = some (rule, captures)) : rule ∈ all.take (n + 1) := by
  have hmem : early ∈ all.take (n + 1) := by
    obtain ⟨hn, rfl⟩ := List.getElem?_eq_some_iff.1 hearly
    exact List.mem_take_iff_getElem.2 ⟨n, by omega, rfl⟩
  have hfound : ((all.take (n + 1)).findSome? fun rule =>
      (rule.pattern.search? input).map (rule, ·)).isSome = true := by
    rw [List.isSome_findSome?, List.any_eq_true]
    exact ⟨early, hmem, by rw [Option.isSome_map]; exact fits⟩
  obtain ⟨found, hfound⟩ := Option.isSome_iff_exists.1 hfound
  have hfirst : first? input = some found := by
    rw [first?, ← List.take_append_drop (n + 1) all, List.findSome?_append, hfound, Option.some_or]
  rw [hfirst] at h
  cases h
  obtain ⟨other, hother, hsearch⟩ := List.exists_of_findSome?_eq_some hfound
  obtain ⟨_, -, hrule⟩ := Option.map_eq_some_iff.1 hsearch
  cases hrule
  exact hother

/-- The places of the rules for the load, for the memory, and for the tree. -/
def hiddenPlaces : List Nat := [10, 11, 14]

/-- Where one of the three rules fits, the rule for showing a file fits too. -/
theorem fits_shown_of_hidden :
    ∃ file, all[5]? = some file ∧ ∀ n ∈ hiddenPlaces, ∃ rule, all[n]? = some rule ∧
      ∀ input, rule.Fits input → file.Fits input := by
  refine ⟨_, rfl, ?_⟩
  simp only [hiddenPlaces, List.forall_mem_cons]
  refine ⟨⟨_, rfl, fun input => ?_⟩, ⟨_, rfl, fun input => ?_⟩, ⟨_, rfl, fun input => ?_⟩,
    List.forall_mem_nil _⟩
  · exact (Pattern.begins_shown _ _ (by decide) (by decide)).isSome_search?
  · exact (Pattern.begins_shown _ _ (by decide) (by decide)).isSome_search?
  · exact (Pattern.begins_shown _ _ (by decide) (by decide)).isSome_search?

/-- A command line looks as if it came from one of the three: by its first word, in any case of
its letters, and for the load also by how sure the reading is. -/
def OfHidden (word : Text) (confidence : Floating) : Prop :=
  Text.lower word = "mem" ∨ Text.lower word = "tree" ∨
    (Text.lower word = "systeminfo" ∧ confidence = Format.single.ofDecimal false 9 (-1))

instance (word : Text) (confidence : Floating) : Decidable (OfHidden word confidence) :=
  inferInstanceAs (Decidable (_ ∨ _ ∨ (_ ∧ _)))

/-- Only the three rules give such command lines. -/
theorem hidden_of_ofHidden : ∀ rule ∈ all, OfHidden rule.verb rule.confidence →
    ∃ n ∈ hiddenPlaces, all[n]? = some rule := by
  decide +kernel

theorem not_ofHidden_before : ∀ rule ∈ all.take 6, ¬OfHidden rule.verb rule.confidence := by
  decide

/-- None of the three rules is taken. -/
theorem not_ofHidden_of_first? (h : first? input = some (rule, captures)) :
    ¬OfHidden rule.verb rule.confidence := by
  intro hlooks
  obtain ⟨n, hn, hrule⟩ := hidden_of_ofHidden rule (mem_of_first? h) hlooks
  obtain ⟨file, hfile, hhides⟩ := fits_shown_of_hidden
  obtain ⟨hidden, hhidden, hfits⟩ := hhides n hn
  cases hrule.symm.trans hhidden
  have hbefore := mem_take_of_fits hfile (hfits input (fits_of_first? h)) h
  exact not_ofHidden_before rule hbefore hlooks

end Rule

/-! ## Command lines -/

/-- The verbs of the hidden rules are known ones. -/
theorem Vocabulary.isKnownVerb_of_ofHidden {word : Text} {confidence : Floating}
    (h : Rule.OfHidden word confidence) : isKnownVerb word = true := by
  rw [isKnownVerb]
  rcases h with hmemory | htree | ⟨hload, -⟩
  · rw [hmemory]
    decide
  · rw [htree]
    decide
  · rw [hload]
    decide

namespace Interpretation

/-- Wherever the rule for the load, for the memory or for the tree fits, the earlier rule for
showing a file fits too.  So an input whose first word is no known verb never stands for a command
line that begins with the verb for the memory or the tree, and never, as surely as the rule for
the load would have it, for one that begins with the verb for the load. -/
theorem hidden_rules_not_taken :
    (∃ file, Rule.all[5]? = some file ∧ ∀ n ∈ Rule.hiddenPlaces, ∃ rule, Rule.all[n]? = some rule ∧
      ∀ input, rule.Fits input → file.Fits input) ∧
    ∀ home input : Text, Vocabulary.opensWithVerb input = false →
      ∀ word, Text.firstWord? (ofInput home input).command = some word →
        ¬Rule.OfHidden word (ofInput home input).confidence := by
  refine ⟨Rule.fits_shown_of_hidden, fun home input hverb word hword hlooks => ?_⟩
  have htrimmed : Vocabulary.opensWithVerb (Text.trim input) = false := by
    rw [Vocabulary.opensWithVerb_trim, hverb]
  rw [ofInput] at hword hlooks
  cases hroute : Route.of (Text.trim input) with
  | direct =>
    rw [Route.opensWithVerb_of_direct hroute] at htrimmed
    cases htrimmed
  | phrase rule captures =>
    rw [hroute] at hword hlooks
    have hfirst := Route.first?_of_phrase hroute
    have hcommand := Rule.firstWord?_command (Rule.mem_of_first? hfirst) home captures
    cases hcommand.symm.trans hword
    exact Rule.not_ofHidden_of_first? hfirst hlooks
  | fallback =>
    -- The command line is the input, so its first word is that of the input.
    rw [hroute] at hword
    have hfirst : Text.firstWord? (Text.trim input) = some word := hword
    have hknown := Vocabulary.isKnownVerb_of_ofHidden hlooks
    rw [Vocabulary.opensWithVerb, hfirst, Option.any_some, hknown] at htrimmed
    cases htrimmed

/-- The rule for the tree fits, with a blank and a letter outside ASCII, and a file is shown. -/
theorem hidden_rules_not_taken_tree :
    let input : Text := "please di\u017Fplay\u2003TREE now"
    (∃ tree ∈ Rule.all[14]?, tree.Fits input) ∧ Vocabulary.opensWithVerb input = false ∧
      (∃ file ∈ Rule.all[5]?, file.Fits input) ∧
      Text.firstWord? (ofInput [] input).command = some "type".toList ∧
      ¬Rule.OfHidden "type" (ofInput [] input).confidence := by
  intro input
  obtain ⟨⟨file, hfile, hhides⟩, hlines⟩ := hidden_rules_not_taken
  obtain ⟨tree, htree, hfits⟩ := hhides 14 (by decide)
  have htreeFits : tree.Fits input := by
    cases htree
    rw [Rule.Fits]
    decide +kernel
  have hverb : Vocabulary.opensWithVerb input = false := by decide
  have hword : Text.firstWord? (ofInput [] input).command = some "type".toList := by
    decide +kernel
  exact ⟨⟨tree, htree, htreeFits⟩, hverb, ⟨file, hfile, hfits input htreeFits⟩, hword,
    hlines [] input hverb _ hword⟩

end Interpretation

end DriveShell
