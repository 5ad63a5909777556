import DriveShell.Proofs.Assembly
import DriveShell.Proofs.Leaving

/-!
# Lines that fail with an unknown verb

A line fails with an unknown verb if no command answers to its first word.  It may do so as well if
there is such a command: the command asks the host, and the host answers with that failure, which is
passed on.  For a line whose verb is listed this is the only way (`Registry.Course.unknown_iff`).
Cutting the line, the file system and the redirection have other failures.

Calls of the host are numbered, and a world knows how many were made.  So the calls of a run are
those with the numbers between its two worlds.  Where a computation is put together from two, the
calls of both make up its own (`Host.reported_iff`), and if the first half got an answer with the
failure, then the second half is not reached.
-/

namespace DriveShell

/-! ## Calls of the host -/

/-- A world comes after another one: calls of the host have only been added. -/
structure World.Precedes (before after : World) : Prop where
  clock : before.clockCalls ≤ after.clockCalls
  load : before.loadCalls ≤ after.loadCalls

namespace World.Precedes

variable {before middle after : World}

theorem refl (world : World) : world.Precedes world := ⟨Nat.le_refl _, Nat.le_refl _⟩

theorem trans (h : before.Precedes middle) (h' : middle.Precedes after) : before.Precedes after :=
  ⟨Nat.le_trans h.clock h'.clock, Nat.le_trans h.load h'.load⟩

end World.Precedes

namespace Host

section Answers

variable {α : Type} {answer : Nat → Except Failure α} {failure : Failure} {first middle last : Nat}

/-- One of the calls with a number from the first up to the last, which is left out, is answered
with a failure. -/
def Answered (answer : Nat → Except Failure α) (failure : Failure) (first last : Nat) : Prop :=
  ∃ call, first ≤ call ∧ call < last ∧ answer call = .error failure

theorem not_answered_self : ¬Answered answer failure first first := by
  rintro ⟨call, hfirst, hlast, -⟩
  exact absurd hlast (Nat.not_lt.2 hfirst)

theorem answered_succ :
    Answered answer failure first (first + 1) ↔ answer first = .error failure := by
  constructor
  · rintro ⟨call, hfirst, hlast, hcall⟩
    rwa [Nat.le_antisymm hfirst (Nat.le_of_lt_succ hlast)]
  · exact fun hcall => ⟨first, Nat.le_refl _, Nat.lt_succ_self _, hcall⟩

theorem answered_iff (h : first ≤ middle) (h' : middle ≤ last) :
    Answered answer failure first last ↔
      Answered answer failure first middle ∨ Answered answer failure middle last := by
  constructor
  · rintro ⟨call, hfirst, hlast, hcall⟩
    rcases Nat.lt_or_ge call middle with hmiddle | hmiddle
    · exact Or.inl ⟨call, hfirst, hmiddle, hcall⟩
    · exact Or.inr ⟨call, hmiddle, hlast, hcall⟩
  · rintro (⟨call, hfirst, hmiddle, hcall⟩ | ⟨call, hmiddle, hlast, hcall⟩)
    · exact ⟨call, hfirst, Nat.lt_of_lt_of_le hmiddle h', hcall⟩
    · exact ⟨call, Nat.le_trans h hmiddle, hlast, hcall⟩

end Answers

variable {host : Host} {before middle after : World} {failure : Failure}

/-- One of the calls that were made between two worlds was answered with a failure. -/
def Reported (host : Host) (before after : World) (failure : Failure) : Prop :=
  Answered host.clock failure before.clockCalls after.clockCalls ∨
    Answered host.load failure before.loadCalls after.loadCalls

theorem not_reported (clock : after.clockCalls = before.clockCalls)
    (load : after.loadCalls = before.loadCalls) : ¬host.Reported before after failure := by
  rw [Reported, clock, load]
  exact not_or.2 ⟨not_answered_self, not_answered_self⟩

/-- The calls of a run are those of its two halves. -/
theorem reported_iff (h : before.Precedes middle) (h' : middle.Precedes after) :
    host.Reported before after failure ↔
      host.Reported before middle failure ∨ host.Reported middle after failure := by
  rw [Reported, answered_iff h.clock h'.clock, answered_iff h.load h'.load]
  exact or_or_or_comm

theorem reported_clock (world : World) :
    host.Reported world { world with clockCalls := world.clockCalls + 1 } failure ↔
      host.clock world.clockCalls = .error failure := by
  rw [Reported, answered_succ]
  exact or_iff_left not_answered_self

theorem reported_load (world : World) :
    host.Reported world { world with loadCalls := world.loadCalls + 1 } failure ↔
      host.load world.loadCalls = .error failure := by
  rw [Reported, answered_succ]
  exact or_iff_right not_answered_self

end Host

namespace Shell.Assembled

variable {asks : Bool} {α : Type} {action : Shell α} {failure : Failure}

theorem precedes (h : Assembled asks action) (scene : Scene) (world : World) :
    world.Precedes (action.outcome scene world).2 := by
  induction h generalizing world with
  | pure a => exact .refl world
  | throw _ => exact .refl world
  | @bind _ _ first _ _ _ ihfirst ihsecond =>
    have hfirst := ihfirst world
    rw [Shell.outcome_bind]
    rcases houtcome : first.outcome scene world with ⟨result, middle⟩
    rw [houtcome] at hfirst
    cases result with
    | error other => exact hfirst
    | ok a => exact hfirst.trans (ihsecond a middle)
  | config => exact .refl world
  | files => exact .refl world
  | ask _ =>
    rw [Shell.outcome_ask]
    exact .refl world
  | @change step _ =>
    rw [Shell.outcome_change]
    cases step world.files with
    | ok files => exact ⟨Nat.le_refl _, Nat.le_refl _⟩
    | error other => exact .refl world
  | clock _ =>
    rw [Shell.outcome_clock]
    exact ⟨Nat.le_succ _, Nat.le_refl _⟩
  | load _ =>
    rw [Shell.outcome_load]
    exact ⟨Nat.le_refl _, Nat.le_succ _⟩

/-- An assembled computation fails with an unknown verb exactly if a call of the host that it makes
is answered with that. -/
theorem unknown_iff (h : Assembled asks action) (hkind : failure.kind = .unrecognized)
    (scene : Scene) (world : World) :
    (action.outcome scene world).1 = .error failure ↔
      scene.host.Reported world (action.outcome scene world).2 failure := by
  induction h generalizing world with
  | pure a => exact iff_of_false (by simp) (Host.not_reported rfl rfl)
  | @throw _ other hother =>
    refine iff_of_false ?_ (Host.not_reported rfl rfl)
    rintro ⟨⟩
    exact hother hkind
  | @bind _ _ first second hfirst hsecond ihfirst ihsecond =>
    have hmiddle := hfirst.precedes scene world
    have ih := ihfirst world
    rw [Shell.outcome_bind]
    rcases houtcome : first.outcome scene world with ⟨result, middle⟩
    rw [houtcome] at hmiddle ih
    cases result with
    | error other => simpa using ih
    | ok a =>
      have hnone : ¬scene.host.Reported world middle failure := mt ih.2 (by simp)
      have hafter := (hsecond a).precedes scene middle
      rw [Host.reported_iff hmiddle hafter, or_iff_right hnone]
      exact ihsecond a middle
  | config => exact iff_of_false (by simp) (Host.not_reported rfl rfl)
  | files => exact iff_of_false (by simp) (Host.not_reported rfl rfl)
  | ask verbless =>
    rw [Shell.outcome_ask]
    exact iff_of_false (fun hfailure => verbless _ failure hfailure hkind)
      (Host.not_reported rfl rfl)
  | @change step verbless =>
    rw [Shell.outcome_change]
    cases hstep : step world.files with
    | ok files => exact iff_of_false (by simp) (Host.not_reported rfl rfl)
    | error other =>
      refine iff_of_false ?_ (Host.not_reported rfl rfl)
      rintro ⟨⟩
      exact verbless _ _ hstep hkind
  | clock _ =>
    rw [Shell.outcome_clock]
    exact (Host.reported_clock world).symm
  | load _ =>
    rw [Shell.outcome_load]
    exact (Host.reported_load world).symm

end Shell.Assembled

/-! ## Failures around the command -/

theorem Words.verbless_ofLine (line : Text) : Verbless (ofLine line) := by
  rw [ofLine]
  split
  next => exact .ok _
  next => exact .error (by rintro ⟨⟩)

theorem Redirect.verbless_extract (words : List Text) : Verbless (extract words) := by
  induction words with
  | nil => exact .ok _
  | cons word words ih =>
    rw [extract.eq_def]
    simp only
    split
    next =>
      split
      next => exact .ok _
      next =>
        split
        next => exact .error (by rintro ⟨⟩)
        next => exact .ok _
    next => exact ih.map _

theorem Redirect.verbless_apply (redirect : Redirect) (output : Text) (fs : FileSystem) :
    Verbless (redirect.apply output fs) := by
  intro failure h
  obtain ⟨-, rfl⟩ := apply_eq_error.1 h
  rw [refusal]
  split
  next => rintro ⟨⟩
  next => rintro ⟨⟩

/-! ## Failures of a line -/

namespace Registry

variable {scene : Scene} {world after : World} {line : Text} {failure : Failure}

theorem verbless_parts (line : Text) : Verbless (parts line) := by
  rw [parts]
  cases hwords : Words.ofLine line with
  | error failure => exact .error (Words.verbless_ofLine line failure hwords)
  | ok words => exact Redirect.verbless_extract words

/-- The command of a line whose verb is listed fails with an unknown verb exactly if a call of the
host that it makes is answered with that. -/
theorem execute_unknown_iff
    (listed : ∀ word ∈ verb? line, (builtin.canonicalVerb word).isSome = true)
    (hkind : failure.kind = .unrecognized) {verb : Text} {arguments : List Text}
    {redirect : Option Redirect} {result : Except Failure Output}
    (hparts : parts line = .ok (verb :: arguments, redirect))
    (hexecute : (builtin.execute verb arguments).outcome scene world = (result, after)) :
    result = .error failure ↔ scene.host.Reported world after failure := by
  have hword : verb? line = some verb := by rw [verb?, hparts]
  obtain ⟨name, hname⟩ := Option.isSome_iff_exists.1 (listed verb hword)
  have hiff := (assembled_execute hname arguments).unknown_iff hkind scene world
  rwa [hexecute] at hiff

/-- A line whose verb is listed fails with an unknown verb exactly if a call of the host that it
makes is answered with that. -/
theorem Course.unknown_iff {result : Except Failure Output}
    (h : Course builtin scene world line result after)
    (listed : ∀ word ∈ verb? line, (builtin.canonicalVerb word).isSome = true)
    (hkind : failure.kind = .unrecognized) :
    result = .error failure ↔ scene.host.Reported world after failure := by
  cases h with
  | unreadable hparts =>
    refine iff_of_false ?_ (Host.not_reported rfl rfl)
    rintro ⟨⟩
    exact verbless_parts line failure hparts hkind
  | blank _ => exact iff_of_false (by simp) (Host.not_reported rfl rfl)
  | failed hparts hexecute => exact execute_unknown_iff listed hkind hparts hexecute
  | shown hparts hexecute => exact execute_unknown_iff listed hkind hparts hexecute
  | @sent _ _ _ _ middle _ hparts hexecute _ =>
    have hnone : ¬scene.host.Reported world middle failure :=
      mt (execute_unknown_iff listed hkind hparts hexecute).2 (by simp)
    exact iff_of_false (by simp) hnone
  | refused hparts hexecute happly =>
    refine iff_of_false ?_ (mt (execute_unknown_iff listed hkind hparts hexecute).2 (by simp))
    rintro ⟨⟩
    exact Redirect.verbless_apply _ _ _ failure happly hkind

end Registry

end DriveShell
