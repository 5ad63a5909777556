import DriveShell.Proofs.Leaving
import DriveShell.Proofs.Trimming

/-!
# Commands written on a line

A verb with its arguments can be run directly, or it can be written on a line and the line
run.  The line is first cut into words and then searched for an operator, and both steps have
to give the words back as they were.

The first step does so whatever the words are, as long as they hold no quote: in quotes a word
keeps its blanks, and it may be empty.  The second step looks at the words alone.  It no longer
sees which of them stood in quotes, so it takes any word that begins with `>` for an operator.
Without such a word the line runs exactly as the verb and the arguments do
(`outcome_quoted`), in every registry.

So quotes do not make data of a word that begins with `>`.  `echo` prints its quoted words back
exactly if there is none (`echo_quoted_iff`).  Otherwise it prints fewer words, into a file.
-/

namespace DriveShell

namespace Redirect

/-- Words from which no redirection is taken hold none. -/
theorem plain_of_extract {words rest : List Text} (h : extract words = .ok (rest, none)) :
    ∀ w ∈ words, w.head? ≠ some '>' := by
  induction words generalizing rest with
  | nil => exact List.forall_mem_nil _
  | cons word words ih =>
    by_cases hword : word.head? = some '>'
    · -- The word is an operator, so a redirection or a failure comes of it.
      rw [(extract.eq_def (word :: words)).trans (if_pos hword)] at h
      split at h
      next => cases h
      next =>
        cases words with
        | nil => cases h
        | cons target words => cases h
    · rw [extract_cons_plain hword] at h
      cases hwords : extract words with
      | error failure =>
        rw [hwords] at h
        cases h
      | ok extracted =>
        obtain ⟨others, redirect⟩ := extracted
        rw [hwords] at h
        cases h
        exact List.forall_mem_cons.2 ⟨hword, ih hwords⟩

end Redirect

namespace Registry

variable {registry : Registry} {line verb : Text} {arguments words : List Text}

/-! ## The same run -/

/-- Without a redirection the words of a line run as a verb with its arguments. -/
theorem outcome_runWords_none (registry : Registry) (verb : Text) (arguments : List Text)
    (scene : Scene) (world : World) :
    (registry.runWords (verb :: arguments) none).outcome scene world =
      (registry.execute verb arguments).outcome scene world := by
  rw [outcome_runWords]
  rcases (registry.execute verb arguments).outcome scene world with ⟨result, after⟩
  cases result with
  | error failure => rfl
  | ok output => rfl

/-- A line that is cut into a verb and arguments, none of which begins with `>`, runs as these. -/
theorem outcome_cut (hwords : Words.ofLine line = .ok (verb :: arguments))
    (plain : ∀ w ∈ verb :: arguments, w.head? ≠ some '>') (scene : Scene) (world : World) :
    (registry.runLine line).outcome scene world =
      (registry.execute verb arguments).outcome scene world := by
  have hparts : parts line = .ok (verb :: arguments, none) := by
    rw [parts_of_words hwords]
    exact Redirect.extract_plain plain
  rw [outcome_runLine, hparts]
  exact outcome_runWords_none registry verb arguments scene world

/-- A line of spelled words, of which none begins with `>`, runs as the words do. -/
theorem outcome_spelled {spellings : List Text} (h : Words.Spread spellings line)
    (spelled : List.Forall₂ Words.Spelled (verb :: arguments) spellings)
    (plain : ∀ w ∈ verb :: arguments, w.head? ≠ some '>') (scene : Scene) (world : World) :
    (registry.runLine line).outcome scene world =
      (registry.execute verb arguments).outcome scene world :=
  outcome_cut (Words.ofLine_spread h spelled) plain scene world

/-- In every registry, a line on which a verb and its arguments stand in quotes, with blanks
between them, runs as the verb does with these arguments.  The words may be empty and hold
blanks.  None may hold a quote or begin with `>`. -/
theorem outcome_quoted (registry : Registry)
    (plain : ∀ w ∈ verb :: arguments, '"' ∉ w ∧ w.head? ≠ some '>')
    (h : Words.Spread ((verb :: arguments).map Words.quoted) line) (scene : Scene)
    (world : World) :
    (registry.runLine line).outcome scene world =
      (registry.execute verb arguments).outcome scene world :=
  outcome_spelled h (Words.forall₂_quoted fun w hw => (plain w hw).1) (fun w hw => (plain w hw).2)
    scene world

/-- A registry of a single command, which answers to the empty verb, and arguments that are
empty or blank. -/
theorem outcome_quoted_empty :
    let registry := Registry.register {} { TerminalCommands.echo with name := [] }
    (∀ w ∈ ([[], [], " \t ", "a>\\b"] : List Text), '"' ∉ w ∧ w.head? ≠ some '>') ∧
      Words.Spread (([[], [], " \t ", "a>\\b"] : List Text).map Words.quoted)
        "\"\" \"\" \" \t \" \"a>\\b\"" ∧
      (registry.runLine "\"\" \"\" \" \t \" \"a>\\b\"").outcome epoch (worldOf []) =
        (registry.execute [] [[], " \t ", "a>\\b"]).outcome epoch (worldOf []) := by
  intro registry
  have hplain : ∀ w ∈ ([[], [], " \t ", "a>\\b"] : List Text), '"' ∉ w ∧ w.head? ≠ some '>' := by
    decide
  have hspread : Words.Spread (([[], [], " \t ", "a>\\b"] : List Text).map Words.quoted)
      "\"\" \"\" \" \t \" \"a>\\b\"" := Words.spread_join _
  exact ⟨hplain, hspread, outcome_quoted registry hplain hspread epoch (worldOf [])⟩

/-! ## Quoted words after `echo` -/

theorem echo_mem : TerminalCommands.echo ∈ builtin.commands := by simp [builtin]

/-- `echo` puts out its arguments and does nothing else. -/
theorem outcome_echo (words : List Text) (scene : Scene) (world : World) :
    (builtin.execute "echo" words).outcome scene world =
      (.ok (.text (Text.join [' '] words)), world) := by
  rw [outcome_listed echo_mem (by decide) words (Nat.zero_le _)]
  rfl

theorem spelled_echo : Words.Spelled "echo" "echo" :=
  .bare (by decide) (by decide) (Text.solid_of_all (by decide))

/-- A line ends with a text only if no redirection has been taken out of it. -/
theorem parts_of_text {scene : Scene} {world : World} {t : Text}
    (h : ((registry.runLine line).outcome scene world).1 = .ok (.text t)) :
    ∃ verb arguments, parts line = .ok (verb :: arguments, none) := by
  have hcourse := runLine_course registry scene world line
  rw [h] at hcourse
  cases hcourse with
  | shown hparts _ => exact ⟨_, _, hparts⟩

/-- A line with `echo` and then words in quotes puts out these words, with one space between
neighbours, and leaves the file system as it is, exactly if none of the words begins with `>`. -/
theorem echo_quoted_iff (unquoted : ∀ w ∈ words, '"' ∉ w)
    (h : Words.Spread ("echo".toList :: words.map Words.quoted) line) (scene : Scene)
    (world : World) :
    ((builtin.runLine line).outcome scene world).1 = .ok (.text (Text.join [' '] words)) ∧
        ((builtin.runLine line).outcome scene world).2.files = world.files ↔
      ∀ w ∈ words, w.head? ≠ some '>' := by
  have hspelled : List.Forall₂ Words.Spelled ("echo".toList :: words)
      ("echo".toList :: words.map Words.quoted) :=
    .cons spelled_echo (Words.forall₂_quoted unquoted)
  constructor
  · rintro ⟨htext, -⟩
    obtain ⟨verb, arguments, hparts⟩ := parts_of_text htext
    rw [parts_of_words (Words.ofLine_spread h hspelled)] at hparts
    exact (List.forall_mem_cons.1 (Redirect.plain_of_extract hparts)).2
  · intro plain
    have hrun : (builtin.runLine line).outcome scene world =
        (.ok (.text (Text.join [' '] words)), world) := by
      rw [outcome_spelled h hspelled (List.forall_mem_cons.2 ⟨by decide, plain⟩), outcome_echo]
    rw [hrun]
    exact ⟨rfl, rfl⟩

/-- Quotes do not keep a word from being an operator: `echo ">x"` prints nothing and makes the
file `x`. -/
theorem quoted_operator_redirects :
    ¬∀ (scene : Scene) (world : World) (words : List Text) (line : Text),
      (∀ w ∈ words, '"' ∉ w) →
        Words.Spread ("echo".toList :: words.map Words.quoted) line →
          ((builtin.runLine line).outcome scene world).1 =
              .ok (.text (Text.join [' '] words)) ∧
            ((builtin.runLine line).outcome scene world).2.files = world.files := by
  intro h
  have hsent : (builtin.runLine "echo \">x\"").outcome epoch (worldOf []) =
      (.ok .none, worldOf [("x", .file [])]) := rfl
  obtain ⟨htext, -⟩ :=
    h epoch (worldOf []) [">x"] "echo \">x\"" (by decide) (Words.spread_join _)
  rw [hsent] at htext
  cases htext

/-- An operator behind a blank or inside a word is put out with the rest. -/
theorem echo_quoted_iff_inside :
    let line : Text := "echo \"\" \" >x\" \"a>b\""
    (∀ w ∈ (["", " >x", "a>b"] : List Text), '"' ∉ w) ∧
      Words.Spread ("echo".toList :: (["", " >x", "a>b"] : List Text).map Words.quoted) line ∧
      (∀ w ∈ (["", " >x", "a>b"] : List Text), w.head? ≠ some '>') ∧
      ((builtin.runLine line).outcome epoch (worldOf [])).1 = .ok (.text "  >x a>b") ∧
      ((builtin.runLine line).outcome epoch (worldOf [])).2.files = (worldOf []).files := by
  intro line
  have hunquoted : ∀ w ∈ (["", " >x", "a>b"] : List Text), '"' ∉ w := by decide
  have hspread : Words.Spread
      ("echo".toList :: (["", " >x", "a>b"] : List Text).map Words.quoted) line :=
    Words.spread_join _
  have hplain : ∀ w ∈ (["", " >x", "a>b"] : List Text), w.head? ≠ some '>' := by decide
  exact ⟨hunquoted, hspread, hplain,
    (echo_quoted_iff hunquoted hspread epoch (worldOf [])).2 hplain⟩

end Registry

end DriveShell
