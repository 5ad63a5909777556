import DriveShell.Proofs.Moves
import DriveShell.Proofs.WrittenWords

/-!
# Redirected commands

A redirection sends what a command puts out into a file and changes nothing else about
it.  Where the operator stands among the words makes no difference: it and its target are
taken out, and the words before and after close up (`Redirect.extract_operator`).  Then
the command runs as it does alone.  Only the end of the run differs, and `sentInto` says
how: a failure stays as it is, and the text of an output is written under the target in the
directory that the command leaves, unless a directory stands there.  An output without text
leaves an empty file.

So a line with a redirection has the outcome of the line without it, sent into the target
(`outcome_redirected`).  For a command that moves, such as `cd`, that is a file in the
directory it moved to.
-/

namespace DriveShell

/-! ## Taking out an operator -/

namespace Redirect

theorem extract_cons_plain {word : Text} (h : word.head? ≠ some '>') (words : List Text) :
    extract (word :: words) =
      (extract words).map fun (words, redirect) => (word :: words, redirect) :=
  (extract.eq_def _).trans (if_neg h)

/-- Words of which none begins with `>` hold no redirection. -/
theorem extract_plain {words : List Text} (plain : ∀ w ∈ words, w.head? ≠ some '>') :
    extract words = .ok (words, none) := by
  induction words with
  | nil => rfl
  | cons word words ih =>
    obtain ⟨hword, hwords⟩ := List.forall_mem_cons.1 plain
    rw [extract_cons_plain hword, ih hwords]
    rfl

/-- The first operator takes the next word with it if nothing is glued to it.  What that
word begins with does not matter. -/
theorem extract_operator {before : List Text} (plain : ∀ w ∈ before, w.head? ≠ some '>')
    {operator : Text} (opens : operator.head? = some '>') (bare : glued operator = [])
    (target : Text) (after : List Text) :
    extract (before ++ operator :: target :: after) =
      .ok (before ++ after, some ⟨target, appends operator⟩) := by
  induction before with
  | nil => rw [List.nil_append, extract, if_pos opens, if_neg (not_not_intro bare), List.nil_append]
  | cons word before ih =>
    obtain ⟨hword, hbefore⟩ := List.forall_mem_cons.1 plain
    rw [List.cons_append, extract_cons_plain hword, ih hbefore]
    rfl

/-- A valid name is refused only where a directory stands under it. -/
theorem apply_valid {fs : FileSystem} (standing : fs.Standing) {target : Name}
    (valid : Path.isValidName target = true) (append : Bool) (output : Text) :
    apply ⟨target, append⟩ output fs =
      match fs.here.get? target with
      | some (.directory _) => .error (.accessDenied target)
      | node => .ok (fs.writeFile target (content ⟨target, append⟩ output node)) := by
  have hfree : Path.hasReserved target = false := by
    simpa using (Bool.and_eq_true_iff.1 valid).2
  rw [apply, hfree, standing.find?_valid valid]
  cases fs.here.get? target with
  | none => rfl
  | some node =>
    cases node with
    | file content => rfl
    | directory children => rfl

end Redirect

/-! ## The run of a redirected command -/

namespace Registry

open FileSystem

/-- The text that is written of an output: all of a text, and nothing of an output that is none. -/
def textOf : Output → Text
  | .text t => t
  | .none => []
  | .clear => []
  | .history => []

/-- What an outcome becomes when its output is sent into a new file of the current
directory. -/
def sentInto (target : Name) : Except Failure Output × World → Except Failure Output × World
  | (.error failure, after) => (.error failure, after)
  | (.ok output, after) =>
    match after.files.here.get? target with
    | some (.directory _) => (.error (.accessDenied target), after)
    | _ => (.ok .none, { after with files := after.files.writeFile target (textOf output) })

theorem redirected_eq_textOf (output : Output) : output.redirected = textOf output := by
  cases output with
  | text t => rfl
  | none => rfl
  | clear => rfl
  | history => rfl

variable {scene : Scene} {world : World}

theorem standing_execute (standing : world.files.Standing) (verb : Text) (arguments : List Text)
    (scene : Scene) : ((builtin.execute verb arguments).outcome scene world).2.files.Standing :=
  (execute_moves verb arguments scene world).keeps standing fun _ _ h move => h.move move

/-- Words that are run with a redirection to a valid name have the outcome that they have
without one, sent into that name. -/
theorem outcome_runWords_redirect (standing : world.files.Standing) {words : List Text}
    (nonempty : words ≠ []) {target : Name} (valid : Path.isValidName target = true) :
    (builtin.runWords words (some ⟨target, false⟩)).outcome scene world =
      sentInto target ((builtin.runWords words none).outcome scene world) := by
  obtain ⟨verb, arguments, rfl⟩ := List.exists_cons_of_ne_nil nonempty
  have hafter := standing_execute standing verb arguments scene
  rw [outcome_runWords, outcome_runWords]
  rcases hexecute : (builtin.execute verb arguments).outcome scene world with ⟨result, after⟩
  rw [hexecute] at hafter
  cases result with
  | error failure => rfl
  | ok output =>
    simp only [sentInto, redirected_eq_textOf, Redirect.apply_valid hafter valid]
    cases after.files.here.get? target with
    | none => rfl
    | some node =>
      cases node with
      | file content => rfl
      | directory children => rfl

/-- A line of quoted words with `>` and a quoted valid name anywhere among them has the
outcome of the line without these two, sent into the file of that name. -/
theorem outcome_redirected (reachable : world.files.Reachable) (before after : List Text)
    (target : Name) (nonempty : before ++ after ≠ [])
    (plain : ∀ w ∈ before ++ after, '"' ∉ w ∧ w.head? ≠ some '>')
    (valid : Path.isValidName target = true) (unquoted : '"' ∉ target)
    {alone redirected : Text}
    (halone : Words.Spread ((before ++ after).map Words.quoted) alone)
    (hredirected : Words.Spread
      (before.map Words.quoted ++ [['>'], Words.quoted target] ++ after.map Words.quoted)
      redirected) (scene : Scene) :
    (builtin.runLine redirected).outcome scene world =
      sentInto target ((builtin.runLine alone).outcome scene world) := by
  have hoperator : Words.Spelled ['>'] ['>'] :=
    .bare (by decide) (by decide) (List.forall_mem_singleton.2 (by decide))
  have hwords : Words.ofLine redirected = .ok (before ++ ['>'] :: target :: after) := by
    refine Words.ofLine_spread hredirected ?_
    rw [List.append_assoc]
    refine List.rel_append (Words.forall₂_quoted fun w hw => (plain w (by simp [hw])).1) ?_
    exact .cons hoperator (.cons (.quoted unquoted)
      (Words.forall₂_quoted fun w hw => (plain w (by simp [hw])).1))
  have hredirect : parts redirected = .ok (before ++ after, some ⟨target, false⟩) := by
    rw [parts_of_words hwords]
    exact Redirect.extract_operator (fun w hw => (plain w (by simp [hw])).2) rfl rfl target after
  have hplain : parts alone = .ok (before ++ after, none) := by
    have hquoted := Words.forall₂_quoted fun w hw => (plain w hw).1
    rw [parts_of_words (Words.ofLine_spread halone hquoted)]
    exact Redirect.extract_plain fun w hw => (plain w hw).2
  simp only [outcome_runLine, hredirect, hplain]
  exact outcome_runWords_redirect reachable.standing nonempty valid

/-- What `echo` prints of the words on both sides of the operator stands in the file.  A `cd` with
the operator in front of its argument leaves an empty file in the directory that it moves to. -/
theorem outcome_redirected_echo :
    ∃ opened, start Reference.drives {} = .ok opened ∧
      let world : World := { files := opened }
      let alone : Text := "\"echo\" \"a  b\" \"c\""
      let redirected : Text := "\"echo\" \"a  b\" > \">x\" \"c\""
      (builtin.runLine redirected).outcome epoch world =
          sentInto ">x" ((builtin.runLine alone).outcome epoch world) ∧
        (builtin.runLine alone).outcome epoch world = (.ok (.text "a  b c"), world) ∧
        (builtin.runLine redirected).outcome epoch world =
          (.ok .none, { world with files := opened.writeFile ">x" "a  b c" }) ∧
        (opened.writeFile ">x" "a  b c").find? ">x" = some (.file "a  b c") ∧
        (builtin.runLine "\"cd\" > \">x\" \"..\"").outcome epoch world =
          (.ok .none, { world with
            files := { opened with cwd := "C:\\Users" }.writeFile ">x" [] }) := by
  have hstart : start Reference.drives {} = .ok _ := rfl
  refine ⟨_, hstart, ?_⟩
  intro world alone redirected
  have hreachable : world.files.Reachable := .opened hstart
  have hecho : (builtin.runLine redirected).outcome epoch world =
      sentInto ">x" ((builtin.runLine alone).outcome epoch world) :=
    outcome_redirected hreachable ["echo", "a  b"] ["c"] ">x" (by decide) (by decide) (by decide)
      (by decide) (Words.spread_join _) (Words.spread_join _) epoch
  have hcd : (builtin.runLine "\"cd\" > \">x\" \"..\"").outcome epoch world =
      sentInto ">x" ((builtin.runLine "\"cd\" \"..\"").outcome epoch world) :=
    outcome_redirected hreachable ["cd"] [".."] ">x" (by decide) (by decide) (by decide)
      (by decide) (Words.spread_join _) (Words.spread_join _) epoch
  exact ⟨hecho, rfl, hecho.trans rfl, rfl, hcd.trans rfl⟩

end Registry

end DriveShell
