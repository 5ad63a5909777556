import Mathlib.Data.Char
import Mathlib.Data.List.Lex
import Mathlib.Data.List.Sort
import DriveShell.Proofs.VerbIndex

/-!
# The verbs in order

The verbs of a registry are listed in order, by the code points of their characters.  Whether a
verb can be listed twice depends on what a command may be called.  The spellings of all commands
are listed each once, however many commands share them, and `help` is put beside them.  So every
verb that runs something is listed exactly once, `help` apart: it is listed a second time if a
command goes by that name in any case of its letters (`verbs_sortedLT_iff`).

A catalogue lists the keys of its index in place of the spellings.  The index holds a spelling
under one key, so that both lists are one (`verbs_of`).
-/

namespace DriveShell

/-! ## Lists in order and without repetitions -/

theorem Text.nodup_eraseDups (texts : List Text) : texts.eraseDups.Nodup := by
  cases texts with
  | nil => exact List.nodup_nil
  | cons t texts =>
    rw [List.eraseDups_cons, List.nodup_cons, List.mem_eraseDups]
    exact ⟨by simp, nodup_eraseDups _⟩
termination_by texts.length
decreasing_by exact Nat.lt_succ_of_le (List.length_filter_le _ texts)

namespace Registry

/-- Verbs are compared as texts are, by the first character in which they differ. -/
theorem atMost_iff_le (s t : Text) : atMost s t = true ↔ s ≤ t := by
  rw [← not_lt]
  induction s generalizing t with
  | nil => exact iff_of_true rfl (List.not_lt_nil t)
  | cons c s ih =>
    cases t with
    | nil => exact iff_of_false Bool.false_ne_true fun h => h (List.nil_lt_cons c s)
    | cons d t =>
      rw [atMost, List.cons_lt_cons_iff]
      split
      next h => simp [h, ih]
      next h =>
        have hcd : c.toNat < d.toNat ↔ c < d := Iff.rfl
        simp only [decide_eq_true_eq, hcd, Ne.symm h, false_and, or_false, not_lt]
        exact (le_iff_lt_or_eq.trans (or_iff_left h)).symm

theorem sortedLE_mergeSort (texts : List Text) : (texts.mergeSort atMost).SortedLE := by
  rw [List.sortedLE_iff_pairwise]
  refine (List.pairwise_mergeSort ?_ ?_ texts).imp (atMost_iff_le _ _).1
  · intro r s t
    simp only [atMost_iff_le]
    exact le_trans
  · intro s t
    simpa only [Bool.or_eq_true, atMost_iff_le] using le_total s t

/-- What is put in order holds what it held. -/
theorem sortedLT_mergeSort_iff (texts : List Text) :
    (texts.mergeSort atMost).SortedLT ↔ texts.Nodup := by
  rw [List.sortedLT_iff_nodup_and_sortedLE, (List.mergeSort_perm texts atMost).nodup_iff]
  exact and_iff_left (sortedLE_mergeSort texts)

end Registry

/-! ## The keys of the index -/

namespace Catalogue

/-- Every verb that is answered, in order: the keys of the index, and `help`. -/
def verbs (catalogue : Catalogue) : List Text :=
  (catalogue.index.keys ++ [Registry.helpVerb]).mergeSort Registry.atMost

theorem mem_index_of (commands : List Command) (key : Text) :
    key ∈ (of commands).index ↔ ∃ command ∈ commands, key ∈ command.spellings := by
  rw [Std.HashMap.mem_iff_isSome_getElem?]
  induction commands using List.reverseRecOn with
  | nil => simp [of]
  | append_singleton commands command ih =>
    rw [of_concat, getElem?_register]
    by_cases hcommand : key ∈ command.spellings
    · simp [hcommand]
    · rw [if_neg hcommand, ih]
      simp [hcommand]

/-- The keys of the index are the spellings of all commands, each once. -/
theorem keys_perm (commands : List Command) :
    (of commands).index.keys.Perm (commands.flatMap (·.spellings)).eraseDups := by
  rw [List.perm_ext_iff_of_nodup Std.HashMap.nodup_keys (Text.nodup_eraseDups _)]
  intro key
  rw [Std.HashMap.mem_keys, mem_index_of, List.mem_eraseDups, List.mem_flatMap]

/-- In order, the keys of the index and `help` are the verbs that a search finds. -/
theorem verbs_of (commands : List Command) :
    (of commands).verbs = Registry.verbs ⟨commands⟩ := by
  have hperm : (of commands).verbs.Perm (Registry.verbs ⟨commands⟩) :=
    ((List.mergeSort_perm _ _).trans ((keys_perm commands).append_right _)).trans
      (List.mergeSort_perm _ _).symm
  exact hperm.eq_of_pairwise (fun _ _ _ _ => le_antisymm)
    (Registry.sortedLE_mergeSort _).pairwise (Registry.sortedLE_mergeSort _).pairwise

end Catalogue

namespace Registry

/-! ## How often a verb is listed -/

theorem isSome_lookup {registry : Registry} {word : Text} :
    (registry.lookup word).isSome = true ↔
      ∃ command ∈ registry.commands, command.AnswersTo word := by
  rw [lookup, List.find?_isSome]
  simp only [List.mem_reverse, Command.contains_spellings]

/-- A word is listed once for the commands that answer to it, however many they are, and once
more if it is `help`. -/
theorem count_verbs (registry : Registry) (word : Text) :
    registry.verbs.count (Text.lower word) =
      (if (registry.lookup word).isSome then 1 else 0) + if isHelp word then 1 else 0 := by
  have hspellings : Text.lower word ∈ (registry.commands.flatMap (·.spellings)).eraseDups ↔
      (registry.lookup word).isSome = true := by
    rw [List.mem_eraseDups, List.mem_flatMap, isSome_lookup]
    simp only [Command.lower_mem_spellings]
  rw [verbs, (List.mergeSort_perm _ _).count_eq, List.count_append,
    (Text.nodup_eraseDups _).count, List.count_singleton]
  simp only [hspellings, isHelp, beq_iff_eq, decide_eq_true_eq, @eq_comm _ helpVerb]

/-- A verb that is given a name is `help`, or a command answers to it. -/
theorem isSome_canonicalVerb_iff {registry : Registry} {word : Text} :
    (registry.canonicalVerb word).isSome = true ↔
      isHelp word = true ∨ (registry.lookup word).isSome = true := by
  rw [canonicalVerb]
  split
  next h => simp [h]
  next h => simp [h]

theorem verbs_sortedLT {registry : Registry} :
    registry.verbs.SortedLT ↔ ∀ command ∈ registry.commands, ¬command.AnswersTo helpVerb := by
  have hlower : Text.lower helpVerb = helpVerb := rfl
  rw [verbs, sortedLT_mergeSort_iff, List.nodup_append_comm, List.singleton_append,
    List.nodup_cons, and_iff_left (Text.nodup_eraseDups _), List.mem_eraseDups, List.mem_flatMap]
  simp only [← Command.lower_mem_spellings, hlower, not_exists, not_and]

/-- A word that is `help` in any case of its letters is answered by the commands that answer to
`help`. -/
theorem lookup_of_isHelp {registry : Registry} {word : Text} (h : isHelp word = true) :
    registry.lookup word = registry.lookup helpVerb := by
  have hlower : Text.lower word = Text.lower helpVerb := of_decide_eq_true h
  rw [lookup, lookup, hlower]

/-- Let some commands have been registered, under whatever names and aliases.  Their verbs are
listed in order, and they are the keys of the index with `help`.  A verb is listed once if some
command answers to it, and `help` is listed once more.  So the verbs increase strictly, and every
verb that runs something is listed exactly once, if and only if no command goes by the name
`help`, in any case of its letters. -/
theorem verbs_sortedLT_iff (commands : List Command) :
    let registry := commands.foldl register {}
    registry.verbs = (Catalogue.of commands).verbs ∧
      registry.verbs.SortedLE ∧
      (∀ word, registry.verbs.count (Text.lower word) =
        (if (registry.lookup word).isSome then 1 else 0) + if isHelp word then 1 else 0) ∧
      (registry.verbs.SortedLT ↔ ∀ command ∈ commands, ¬command.AnswersTo helpVerb) ∧
      ((∀ word, (registry.canonicalVerb word).isSome = true →
        registry.verbs.count (Text.lower word) = 1) ↔
        ∀ command ∈ commands, ¬command.AnswersTo helpVerb) := by
  intro registry
  have hregistry : registry = ⟨commands⟩ := foldl_register commands
  rw [hregistry]
  refine ⟨(Catalogue.verbs_of commands).symm, sortedLE_mergeSort _, count_verbs _, verbs_sortedLT,
    fun honce command hmem hanswers => ?_, fun hnone word hnamed => ?_⟩
  · have hfound := isSome_lookup.2 ⟨command, hmem, hanswers⟩
    have hhelp := honce helpVerb (isSome_canonicalVerb_iff.2 (Or.inr hfound))
    rw [count_verbs, if_pos hfound, if_pos (show isHelp helpVerb = true from rfl)] at hhelp
    cases hhelp
  · have hmissing : ¬(lookup ⟨commands⟩ helpVerb).isSome = true := fun hfound => by
      obtain ⟨command, hmem, hanswers⟩ := isSome_lookup.1 hfound
      exact hnone command hmem hanswers
    rw [count_verbs]
    by_cases hhelp : isHelp word = true
    · rw [lookup_of_isHelp hhelp, if_neg hmissing, if_pos hhelp]
    · rw [if_pos ((isSome_canonicalVerb_iff.1 hnamed).resolve_left hhelp), if_neg hhelp]

/-- If a command goes by the name `help`, then `help` is listed twice. -/
theorem help_listed_twice :
    let command : Command := { TerminalCommands.echo with name := "HELP" }
    let registry := [command].foldl register {}
    registry.verbs = ["help".toList, "help".toList] ∧ ¬registry.verbs.SortedLT := by
  intro command registry
  have hverbs : registry.verbs = ["help".toList, "help".toList] :=
    List.mergeSort_of_pairwise (by decide)
  refine ⟨hverbs, fun hsorted => ?_⟩
  have hnodup := hsorted.nodup
  rw [hverbs] at hnodup
  exact absurd hnodup (by decide)

end Registry

end DriveShell
