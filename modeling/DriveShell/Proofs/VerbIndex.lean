import Mathlib.Data.List.Basic
import Mathlib.Data.List.Induction
import DriveShell.Command.Builtin

/-!
# The index of verbs

Among the commands that answer to a word, the last one registered runs.  Everything that looks for
a command by a word finds that one: running the word, its canonical name and the help on it
(`one_command_answers`).

A search through all commands from the last one back finds it, and that is what `lookup` does.  A
`Catalogue` finds it by a hash map instead, from spellings to places.  A command that is registered
is put down under all its spellings, and may take over some of those of an earlier one and leave
it the others.  So what the map holds for a word is a matter of the whole run of registrations.
One registration either puts the new place under a word or leaves the word alone
(`getElem?_register`).  From that, by induction on the registrations from their end, the map holds
the place of the last command that answers to the word (`getElem?_of_wins`).

`help` is outside of all this.  The word runs no command, even if one goes by that name.
-/

namespace DriveShell

/-- The name of a command or one of its aliases is the word, but for the case of ASCII letters. -/
def Command.AnswersTo (command : Command) (word : Text) : Prop :=
  ∃ spelling ∈ command.name :: command.aliases, Text.sameLetters spelling word = true

theorem Command.lower_mem_spellings {command : Command} {word : Text} :
    Text.lower word ∈ command.spellings ↔ command.AnswersTo word := by
  rw [spellings, ← List.map_cons, List.mem_map, AnswersTo]
  simp only [Text.sameLetters, decide_eq_true_eq]

theorem Command.contains_spellings {command : Command} {word : Text} :
    command.spellings.contains (Text.lower word) = true ↔ command.AnswersTo word :=
  List.contains_iff_mem.trans lower_mem_spellings

namespace Registry

/-! ## The last command that answers -/

/-- A command answers to a word, and those behind it do not. -/
structure Wins (word : Text) (command : Command) (after : List Command) : Prop where
  /-- It answers to the word. -/
  answers : command.AnswersTo word
  /-- No later command does. -/
  last : ∀ later ∈ after, ¬later.AnswersTo word

variable {commands before after : List Command} {command : Command} {word : Text}

/-- A registry that takes in some commands holds them in the order of their registration. -/
theorem foldl_register (commands : List Command) :
    commands.foldl register {} = ⟨commands⟩ := by
  induction commands using List.reverseRecOn with
  | nil => rfl
  | append_singleton commands command ih => rw [List.foldl_concat, ih, register]

theorem lookup_of_wins (h : Wins word command after) :
    lookup ⟨before ++ command :: after⟩ word = some command := by
  have hlater : ∀ later ∈ after.reverse, ¬later.spellings.contains (Text.lower word) = true := by
    intro later hmem hcontains
    exact h.last later (List.mem_reverse.1 hmem) (Command.contains_spellings.1 hcontains)
  rw [lookup, List.reverse_append, List.reverse_cons, List.append_assoc, List.find?_append,
    List.find?_eq_none.2 hlater, Option.none_or, List.find?_append,
    List.find?_singleton, if_pos (Command.contains_spellings.2 h.answers), Option.some_or]

theorem lookup_of_unanswered (h : ∀ command ∈ commands, ¬command.AnswersTo word) :
    lookup ⟨commands⟩ word = none := by
  refine List.find?_eq_none.2 fun command hmem hcontains => ?_
  exact h command (List.mem_reverse.1 hmem) (Command.contains_spellings.1 hcontains)

/-- Some command has the last word, or none answers. -/
theorem exists_wins_or_unanswered (commands : List Command) (word : Text) :
    (∃ before command after, commands = before ++ command :: after ∧ Wins word command after) ∨
      ∀ command ∈ commands, ¬command.AnswersTo word := by
  induction commands with
  | nil => exact Or.inr nofun
  | cons first commands ih =>
    rcases ih with ⟨before, command, after, rfl, hwins⟩ | hnone
    · exact Or.inl ⟨first :: before, command, after, rfl, hwins⟩
    · by_cases hfirst : first.AnswersTo word
      · exact Or.inl ⟨[], first, commands, rfl, hfirst, hnone⟩
      · exact Or.inr (List.forall_mem_cons.2 ⟨hfirst, hnone⟩)

end Registry

/-! ## The index -/

/-- A text has the hash of the string with its characters. -/
instance : Hashable Text := ⟨fun t => hash (String.ofList t)⟩

/-- Commands in the order of their registration, and an index of their verbs. -/
structure Catalogue where
  /-- The commands, the earliest first. -/
  commands : List Command := []
  /-- For a spelling, the place of the command that answers to it. -/
  index : Std.HashMap Text Nat := {}

namespace Catalogue

variable {catalogue : Catalogue} {command : Command} {word : Text}

/-- The catalogue with one more command, in the next place under all its spellings. -/
def register (catalogue : Catalogue) (command : Command) : Catalogue where
  commands := catalogue.commands ++ [command]
  index := command.spellings.foldl (·.insert · catalogue.commands.length) catalogue.index

/-- The catalogue that the registration of some commands leaves. -/
def of (commands : List Command) : Catalogue := commands.foldl register {}

theorem of_concat (commands : List Command) (command : Command) :
    of (commands ++ [command]) = (of commands).register command := List.foldl_concat _ _ _ _

theorem commands_of (commands : List Command) : (of commands).commands = commands := by
  induction commands using List.reverseRecOn with
  | nil => rfl
  | append_singleton commands command ih => rw [of_concat, register, ih]

/-- Under the keys that are gone through there is the new value, and the others are left alone. -/
theorem getElem?_foldl_insert (keys : List Text) (value : Nat) (map : Std.HashMap Text Nat)
    (key : Text) :
    (keys.foldl (·.insert · value) map)[key]? = if key ∈ keys then some value else map[key]? := by
  induction keys generalizing map with
  | nil => simp
  | cons first keys ih =>
    rw [List.foldl_cons, ih, Std.HashMap.getElem?_insert]
    by_cases hkeys : key ∈ keys
    · rw [if_pos hkeys, if_pos (List.mem_cons_of_mem first hkeys)]
    · rw [if_neg hkeys]
      by_cases hfirst : key = first
      · rw [if_pos (beq_iff_eq.2 hfirst.symm), if_pos (List.mem_cons.2 (Or.inl hfirst))]
      · rw [if_neg fun h => hfirst (beq_iff_eq.1 h).symm,
          if_neg fun h => (List.mem_cons.1 h).elim hfirst hkeys]

/-- One registration takes over the spellings of its command, and no others. -/
theorem getElem?_register (key : Text) :
    (catalogue.register command).index[key]? =
      if key ∈ command.spellings then some catalogue.commands.length
      else catalogue.index[key]? := getElem?_foldl_insert ..

/-- The index holds the place of the last command that answers to a word. -/
theorem getElem?_of_wins {before after : List Command} (h : Registry.Wins word command after) :
    (of (before ++ command :: after)).index[Text.lower word]? = some before.length := by
  induction after using List.reverseRecOn with
  | nil =>
    rw [of_concat, getElem?_register, if_pos (Command.lower_mem_spellings.2 h.answers),
      commands_of]
  | append_singleton after later ih =>
    have hlater : Text.lower word ∉ later.spellings := fun hmem =>
      h.last later List.mem_concat_self (Command.lower_mem_spellings.1 hmem)
    rw [← List.cons_append, ← List.append_assoc, of_concat, getElem?_register, if_neg hlater]
    exact ih ⟨h.answers, fun other hmem => h.last other (List.mem_append_left _ hmem)⟩

theorem getElem?_of_unanswered {commands : List Command}
    (h : ∀ command ∈ commands, ¬command.AnswersTo word) :
    (of commands).index[Text.lower word]? = none := by
  induction commands using List.reverseRecOn with
  | nil => exact Std.HashMap.getElem?_empty
  | append_singleton commands command ih =>
    have hcommand : Text.lower word ∉ command.spellings := fun hmem =>
      h command List.mem_concat_self (Command.lower_mem_spellings.1 hmem)
    rw [of_concat, getElem?_register, if_neg hcommand]
    exact ih fun other hmem => h other (List.mem_append_left _ hmem)

end Catalogue

namespace Registry

variable {commands : List Command} {word : Text}

/-! ## What a word leads to -/

theorem mem_verbs {registry : Registry} {verb : Text} :
    verb ∈ registry.verbs ↔
      verb = helpVerb ∨ ∃ command ∈ registry.commands, verb ∈ command.spellings := by
  rw [verbs, List.mem_mergeSort, List.mem_append, List.mem_eraseDups, List.mem_flatMap,
    List.mem_singleton, or_comm]

/-- A word that is not `help` runs, names and explains the command that is found for it. -/
structure LeadsTo (registry : Registry) (word : Text) (command : Command) : Prop where
  /-- With arguments enough the command runs. -/
  runs : ∀ arguments, registry.execute word arguments =
    if arguments.length < command.leastArguments then throw .malformed else command.run arguments
  /-- The name is that of the command. -/
  name : registry.canonicalVerb word = some command.name
  /-- Without a sample the help is the usage and the description. -/
  help_plain : command.sample = none →
    registry.help (some word) = command.usage ++ " - " ++ command.description
  /-- A sample stands on a line of its own behind them. -/
  help_sample : ∀ sample, command.sample = some sample →
    registry.help (some word) =
      command.usage ++ " - " ++ command.description ++ "\nExample: " ++ sample

/-- A word is unknown wherever a command is looked for. -/
structure LeadsNowhere (registry : Registry) (word : Text) : Prop where
  /-- It is an unknown verb, as it is spelled. -/
  runs : ∀ arguments, registry.execute word arguments = throw (.unrecognized word)
  /-- It has no name. -/
  name : registry.canonicalVerb word = none
  /-- There is no help on it. -/
  help : registry.help (some word) = "This command is not supported by the help utility."

theorem leadsTo_of_lookup {registry : Registry} {command : Command} (h : isHelp word = false)
    (found : registry.lookup word = some command) : registry.LeadsTo word command := by
  have hhelp : ¬isHelp word = true := Bool.eq_false_iff.1 h
  have hentry : registry.help (some word) =
      entry command.usage command.description command.sample := by
    rw [Registry.help, if_neg hhelp, found]
  refine ⟨fun arguments => ?_, ?_, fun hsample => ?_, fun sample hsample => ?_⟩
  · rw [execute, if_neg hhelp, found]
  · rw [canonicalVerb, if_neg hhelp, found, Option.map_some]
  · rw [hentry, hsample, entry]
  · rw [hentry, hsample, entry]

theorem leadsNowhere_of_lookup {registry : Registry} (h : isHelp word = false)
    (missing : registry.lookup word = none) : registry.LeadsNowhere word := by
  have hhelp : ¬isHelp word = true := Bool.eq_false_iff.1 h
  refine ⟨fun arguments => ?_, ?_, ?_⟩
  · rw [execute, if_neg hhelp, missing]
  · rw [canonicalVerb, if_neg hhelp, missing, Option.map_none]
  · rw [Registry.help, if_neg hhelp, missing]

/-- Let some commands have been registered, under whatever names and aliases, and let a word not
be `help` in any case of its letters.  Either there is a last command among those that answer to
the word.  Then the index holds the place of that command under the word, and the command is the
one that runs, whose name is given and that the help is about.  Or no command answers to the word.
Then the index holds nothing under it, and it is unknown everywhere.

A word, `help` or not, is among the verbs in small letters exactly if it is `help` or some command
answers to it. -/
theorem one_command_answers (commands : List Command) (word : Text) :
    let registry := commands.foldl register {}
    (isHelp word = false →
      (∃ before command after, commands = before ++ command :: after ∧ Wins word command after ∧
        (Catalogue.of commands).index[Text.lower word]? = some before.length ∧
        registry.LeadsTo word command) ∨
      (∀ command ∈ commands, ¬command.AnswersTo word) ∧
        (Catalogue.of commands).index[Text.lower word]? = none ∧
        registry.LeadsNowhere word) ∧
    (Text.lower word ∈ registry.verbs ↔
      isHelp word = true ∨ ∃ command ∈ commands, command.AnswersTo word) := by
  intro registry
  have hregistry : registry = ⟨commands⟩ := foldl_register commands
  rw [hregistry]
  refine ⟨fun hhelp => ?_, ?_⟩
  · rcases exists_wins_or_unanswered commands word with
      ⟨before, command, after, rfl, hwins⟩ | hnone
    · exact Or.inl ⟨before, command, after, rfl, hwins, Catalogue.getElem?_of_wins hwins,
        leadsTo_of_lookup hhelp (lookup_of_wins hwins)⟩
    · exact Or.inr ⟨hnone, Catalogue.getElem?_of_unanswered hnone,
        leadsNowhere_of_lookup hhelp (lookup_of_unanswered hnone)⟩
  · rw [mem_verbs, isHelp, decide_eq_true_eq]
    simp only [Command.lower_mem_spellings]

/-- The name of one command is an alias of the next, in other letters, and the next one has it.
The help on the word is that of the next one as well. -/
theorem one_command_answers_overtaken :
    let quiet : Command := { TerminalCommands.echo with aliases := ["Say"] }
    let loud : Command := { TerminalCommands.echo with
      name := "Shout", aliases := ["ECHO"], usage := "SHOUT <text>", sample := some "shout Hey" }
    let registry := [quiet, loud].foldl register {}
    isHelp "eCho" = false ∧
      (Catalogue.of [quiet, loud]).index["echo".toList]? = some 1 ∧
      registry.LeadsTo "eCho" loud ∧
      registry.help (some "eCho") = "SHOUT <text> - Display text\nExample: shout Hey" := by
  intro quiet loud registry
  have hhelp : isHelp "eCho" = false := by decide
  have hloud : loud.AnswersTo "eCho" := Command.lower_mem_spellings.1 (by decide)
  rcases (one_command_answers [quiet, loud] "eCho").1 hhelp with
    ⟨before, command, after, hsplit, hwins, hindex, hleads⟩ | ⟨hnone, -⟩
  · rcases List.cons_eq_append_iff.1 hsplit with ⟨rfl, hcons⟩ | ⟨rest, rfl, hrest⟩
    · cases hcons
      exact absurd hloud (hwins.last loud List.mem_cons_self)
    · rcases List.singleton_eq_append_iff.1 hrest with ⟨rfl, hcons⟩ | ⟨rfl, hcons⟩
      · cases hcons
        exact ⟨hhelp, hindex, hleads, hleads.help_sample "shout Hey" rfl⟩
      · cases hcons
  · exact absurd hloud (hnone loud (List.mem_cons_of_mem quiet List.mem_cons_self))

end Registry

end DriveShell
