import DriveShell.Proofs.Assembly
import DriveShell.Proofs.Reach
import DriveShell.Proofs.WrittenCommands

/-!
# What does not depend on the host

Two sessions with the same settings and the same file system may run on different hosts, of
which one answers where the other fails.  The same command lines are run on both.  As long as no
output is redirected, the file systems stay the same (`runLines_alike`): whatever the hosts
answer, only outputs depend on it, and no output gets into the tree.

A computation is `Blind` if it gives the same on all hosts, and what is assembled without asking
the host is.  So the results are the same as well, except for six commands.  These ask the host,
but they never change the file system, and it does not matter that one of them may fail on one
side only.

A redirection would break this.  It writes the output of a command into the tree, and of a `date`
it writes what the clock reads.
-/

namespace DriveShell

/-! ## Blind computations -/

/-- Two outcomes with the same result and the same file system.  How often the hosts were asked
may differ. -/
def Shell.Alike {α : Type} (first second : Except Failure α × World) : Prop :=
  first.1 = second.1 ∧ first.2.files = second.2.files

/-- A computation that has alike outcomes on all hosts. -/
def Shell.Blind {α : Type} (action : Shell α) : Prop :=
  ∀ config host other world twin, world.files = twin.files →
    Alike (action.outcome ⟨config, host⟩ world) (action.outcome ⟨config, other⟩ twin)

namespace Shell.Blind

variable {α β : Type}

theorem pure (a : α) : Shell.Blind (Pure.pure a) := fun _ _ _ _ _ same => ⟨rfl, same⟩

theorem throw (failure : Failure) : Shell.Blind (throwThe Failure failure : Shell α) :=
  fun _ _ _ _ _ same => ⟨rfl, same⟩

theorem bind {first : Shell α} {second : α → Shell β} (h : first.Blind)
    (h' : ∀ a, (second a).Blind) : (first >>= second).Blind := by
  intro config host other world twin same
  obtain ⟨hresult, hfiles⟩ := h config host other world twin same
  rw [Shell.outcome_bind, Shell.outcome_bind]
  rcases hone : first.outcome ⟨config, host⟩ world with ⟨result, after⟩
  rcases htwo : first.outcome ⟨config, other⟩ twin with ⟨result', after'⟩
  rw [hone, htwo] at hresult hfiles
  cases hresult
  cases result with
  | error failure => exact ⟨rfl, hfiles⟩
  | ok a => exact h' a config host other after after' hfiles

theorem config : Shell.config.Blind := fun _ _ _ _ _ same => ⟨rfl, same⟩

theorem files : Shell.files.Blind := fun _ _ _ _ _ same => ⟨congrArg Except.ok same, same⟩

theorem ask (question : FileSystem → Except Failure α) : (Shell.ask question).Blind := by
  intro config host other world twin same
  rw [Shell.outcome_ask, Shell.outcome_ask, same]
  exact ⟨rfl, same⟩

theorem change (step : FileSystem → Except Failure FileSystem) : (Shell.change step).Blind := by
  intro config host other world twin same
  rw [Shell.outcome_change, Shell.outcome_change, same]
  cases step twin.files with
  | ok files => exact ⟨rfl, rfl⟩
  | error failure => exact ⟨rfl, same⟩

end Shell.Blind

/-- What is assembled without asking the host is blind. -/
theorem Shell.Assembled.blind {α : Type} {action : Shell α} (h : Assembled false action) :
    action.Blind := by
  induction h with
  | pure a => exact .pure a
  | throw _ => exact .throw _
  | bind _ _ ihfirst ihsecond => exact ihfirst.bind ihsecond
  | config => exact .config
  | files => exact .files
  | ask _ => exact .ask _
  | change _ => exact .change _
  | clock hasks => cases hasks
  | load hasks => cases hasks

namespace Registry

variable {config : Config} {host other : Host} {world twin : World} {line : Text}

/-! ## The same verb on two hosts -/

/-- A verb that is not listed under one of those that ask the host is run blindly. -/
theorem blind_execute {verb : Text} (h : ∀ name ∈ hostVerbs, builtin.canonicalVerb verb ≠ some name)
    (arguments : List Text) : (builtin.execute verb arguments).Blind := by
  cases hverb : builtin.canonicalVerb verb with
  | none =>
    rw [execute_unlisted hverb]
    exact .throw _
  | some name =>
    have hassembled := assembled_execute hverb arguments
    have hother : hostVerbs.contains name = false :=
      Bool.eq_false_iff.2 fun hname => h name (List.contains_iff_mem.1 hname) hverb
    rw [hother] at hassembled
    exact hassembled.blind

theorem not_mem_changingVerbs : ∀ name ∈ hostVerbs, name ∉ changingVerbs := by decide

/-- A verb that is listed under one of those that ask the host leaves the file system alone. -/
theorem files_execute_asking {verb name : Text} (hname : name ∈ hostVerbs)
    (h : builtin.canonicalVerb verb = some name) (arguments : List Text) (scene : Scene)
    (world : World) :
    ((builtin.execute verb arguments).outcome scene world).2.files = world.files := by
  refine files_of_footprint (execute_footprint verb arguments scene world) fun changing hmem => ?_
  rw [h]
  rintro ⟨⟩
  exact not_mem_changingVerbs name hname hmem

/-- The file systems stay the same, also where only one of the hosts fails. -/
theorem files_execute_alike (same : world.files = twin.files) (verb : Text)
    (arguments : List Text) :
    ((builtin.execute verb arguments).outcome ⟨config, host⟩ world).2.files =
      ((builtin.execute verb arguments).outcome ⟨config, other⟩ twin).2.files := by
  by_cases h : ∃ name ∈ hostVerbs, builtin.canonicalVerb verb = some name
  · obtain ⟨name, hname, hverb⟩ := h
    rw [files_execute_asking hname hverb, files_execute_asking hname hverb, same]
  · have hblind : ∀ name ∈ hostVerbs, builtin.canonicalVerb verb ≠ some name :=
      fun name hname hverb => h ⟨name, hname, hverb⟩
    exact (blind_execute hblind arguments config host other world twin same).2

/-! ## The same line on two hosts -/

/-- Without a redirection there is nothing to run, or a verb with its arguments. -/
theorem runLine_plain (plain : redirect? line = none) :
    (∃ result : Except Failure Output,
      ∀ scene world, (builtin.runLine line).outcome scene world = (result, world)) ∨
    ∃ verb arguments, verb? line = some verb ∧ ∀ scene world,
      (builtin.runLine line).outcome scene world =
        (builtin.execute verb arguments).outcome scene world := by
  simp only [outcome_runLine]
  rw [redirect?] at plain
  cases hparts : parts line with
  | error failure => exact Or.inl ⟨.error failure, fun _ _ => rfl⟩
  | ok extracted =>
    obtain ⟨words, redirect⟩ := extracted
    rw [hparts] at plain
    cases plain
    cases words with
    | nil => exact Or.inl ⟨.ok .none, fun _ _ => rfl⟩
    | cons verb arguments =>
      exact Or.inr ⟨verb, arguments, by rw [verb?, hparts], outcome_runWords_none _ _ _⟩

theorem files_runLine_alike (same : world.files = twin.files) (plain : redirect? line = none) :
    ((builtin.runLine line).outcome ⟨config, host⟩ world).2.files =
      ((builtin.runLine line).outcome ⟨config, other⟩ twin).2.files := by
  rcases runLine_plain plain with ⟨result, hrun⟩ | ⟨verb, arguments, -, hrun⟩
  · rw [hrun, hrun, same]
  · rw [hrun, hrun, files_execute_alike same]

/-- A line whose verb does not ask the host has the same result on both. -/
theorem result_runLine_alike (same : world.files = twin.files) (plain : redirect? line = none)
    (h : ∀ name ∈ hostVerbs, (verb? line).bind builtin.canonicalVerb ≠ some name) :
    ((builtin.runLine line).outcome ⟨config, host⟩ world).1 =
      ((builtin.runLine line).outcome ⟨config, other⟩ twin).1 := by
  rcases runLine_plain plain with ⟨result, hrun⟩ | ⟨verb, arguments, hverb, hrun⟩
  · rw [hrun, hrun]
  · rw [hverb] at h
    rw [hrun, hrun]
    exact (blind_execute h arguments config host other world twin same).1

/-! ## The same lines on two hosts -/

theorem runLines_alike (same : world.files = twin.files) {lines : List Text}
    (plain : ∀ line ∈ lines, redirect? line = none) :
    (builtin.runLines ⟨config, host⟩ world lines).files =
      (builtin.runLines ⟨config, other⟩ twin lines).files := by
  induction lines generalizing world twin with
  | nil => exact same
  | cons line lines ih =>
    obtain ⟨hline, hlines⟩ := List.forall_mem_cons.1 plain
    exact ih (files_runLine_alike same hline) hlines

/-- The same lines, none of which redirects its output, are run on two hosts from the same file
system.  After every line the file systems are the same again, with all names, their order, all
contents and the current path.  Every line whose verb is not listed under one of the six that ask
the host has the same result, the same output or the same failure. -/
theorem alike_on_all_hosts (config : Config) (host other : Host)
    (same : world.files = twin.files) {lines : List Text}
    (plain : ∀ line ∈ lines, redirect? line = none) :
    ∀ before line after, lines = before ++ line :: after →
      let first := (builtin.runLine line).outcome ⟨config, host⟩
        (builtin.runLines ⟨config, host⟩ world before)
      let second := (builtin.runLine line).outcome ⟨config, other⟩
        (builtin.runLines ⟨config, other⟩ twin before)
      first.2.files = second.2.files ∧
        ((∀ name ∈ hostVerbs, (verb? line).bind builtin.canonicalVerb ≠ some name) →
          first.1 = second.1) := by
  rintro before line after rfl first second
  obtain ⟨hbefore, hline⟩ := List.forall_mem_append.1 plain
  obtain ⟨hline, -⟩ := List.forall_mem_cons.1 hline
  have hsame : (builtin.runLines ⟨config, host⟩ world before).files =
      (builtin.runLines ⟨config, other⟩ twin before).files := runLines_alike same hbefore
  exact ⟨files_runLine_alike hsame hline, result_runLine_alike hsame hline⟩

/-- The clock of one host is broken, and it is asked between two changes. -/
theorem alike_on_all_hosts_broken_clock :
    let broken : Host := .scripted (.error (.host "no clock")) [] (.error (.host "no load"))
    let lines : List Text := ["mkdir x", "DIR", "chdir x", "pwd"]
    let world := worldOf []
    (builtin.runLine "DIR").outcome epoch world ≠
        (builtin.runLine "DIR").outcome ⟨{}, broken⟩ world ∧
      (∀ line ∈ lines, redirect? line = none) ∧
      ∀ before line after, lines = before ++ line :: after →
        let first := (builtin.runLine line).outcome epoch (builtin.runLines epoch world before)
        let second := (builtin.runLine line).outcome ⟨{}, broken⟩
          (builtin.runLines ⟨{}, broken⟩ world before)
        first.2.files = second.2.files ∧
          ((∀ name ∈ hostVerbs, (verb? line).bind builtin.canonicalVerb ≠ some name) →
            first.1 = second.1) := by
  intro broken lines world
  have hplain : ∀ line ∈ lines, redirect? line = none := by decide
  refine ⟨fun h => ?_, hplain, alike_on_all_hosts {} epoch.host broken rfl hplain⟩
  exact absurd (congrArg (·.1.isOk) h) (by decide)

end Registry

end DriveShell
