import DriveShell.FileSystem.Basic
import DriveShell.Host.Basic

/-!
# Running in the shell

A command runs against a *scene* and a *world*.  The scene does not change while
a session lasts: the settings and the host.  The world does: the file system and
how often the host was asked, since each call to the host may answer differently.

A computation of the shell gives a value or a failure, and a world in either
case.  What it did before a failure stays done.  `outcome` is that pair, and each
operation has a lemma that says what its outcome is.
-/

namespace DriveShell

/-- What does not change while a session lasts. -/
structure Scene where
  /-- The settings. -/
  config : Config
  /-- The host. -/
  host : Host

/-- What commands change. -/
structure World where
  /-- The file system. -/
  files : FileSystem
  /-- How often the clock was read. -/
  clockCalls : Nat := 0
  /-- How often the load was measured. -/
  loadCalls : Nat := 0
deriving DecidableEq

/-- A computation of the shell. -/
abbrev Shell := ReaderT Scene (ExceptT Failure (StateM World))

/-- What a command puts out. -/
inductive Output
  /-- A text, possibly empty. -/
  | text (t : Text)
  /-- Nothing. -/
  | none
  /-- The wish to clear the display. -/
  | clear
  /-- The wish to show the history of the session. -/
  | history
deriving DecidableEq

namespace Output

/-- What is written when the output is redirected. -/
def redirected : Output → Text
  | .text t => t
  | _ => []

/-- The output as a text.  A wish is a reserved word, which a session never shows. -/
def display : Output → Text
  | .text t => t
  | .none => []
  | .clear => "CLEAR_SCREEN"
  | .history => "SHOW_HISTORY"

end Output

namespace Shell

/-- The outcome of a computation in a scene and a world, with the world after it. -/
def outcome {α : Type} (action : Shell α) (scene : Scene) (world : World) :
    Except Failure α × World :=
  (action.run scene).run.run world

/-- The settings. -/
def config : Shell Config := return (← read).config

/-- The file system. -/
def files : Shell FileSystem := return (← get).files

/-- A value or a failure as a computation. -/
def ofExcept {α : Type} : Except Failure α → Shell α
  | .ok value => pure value
  | .error failure => throw failure

/-- The answer to a question about the file system. -/
def ask {α : Type} (question : FileSystem → Except Failure α) : Shell α := do
  ofExcept (question (← files))

/-- A change to the file system, or its refusal. -/
def change (step : FileSystem → Except Failure FileSystem) : Shell Unit := do
  let files ← ask step
  modify fun world => { world with files := files }

/-- What the clock of the host reads. -/
def clock : Shell CivilTime := do
  let call := (← get).clockCalls
  modify fun world => { world with clockCalls := call + 1 }
  ofExcept ((← read).host.clock call)

/-- How busy the host is. -/
def load : Shell Snapshot := do
  let call := (← get).loadCalls
  modify fun world => { world with loadCalls := call + 1 }
  ofExcept ((← read).host.load call)

/-! ## Outcomes, operation by operation -/

section Outcomes

variable {α β : Type} (scene : Scene) (world : World)

@[simp] theorem outcome_pure (a : α) : outcome (pure a) scene world = (.ok a, world) := rfl

@[simp] theorem outcome_throw (failure : Failure) :
    outcome (throw failure : Shell α) scene world = (.error failure, world) := rfl

/-- What comes second runs in the world that the first left, and not at all after a failure. -/
@[simp] theorem outcome_bind (first : Shell α) (second : α → Shell β) :
    outcome (first >>= second) scene world =
      match outcome first scene world with
      | (.ok a, world) => outcome (second a) scene world
      | (.error failure, world) => (.error failure, world) := by
  rcases h : outcome first scene world with ⟨result, after⟩
  replace h : first scene world = (result, after) := h
  change (first scene >>= fun a => second a scene : ExceptT Failure (StateM World) β) world = _
  cases result <;> simp [Bind.bind, ExceptT.bind, ExceptT.mk, ExceptT.bindCont, StateT.bind, h] <;>
    rfl

@[simp] theorem outcome_config : outcome config scene world = (.ok scene.config, world) := rfl

@[simp] theorem outcome_files : outcome files scene world = (.ok world.files, world) := rfl

@[simp] theorem outcome_ofExcept (result : Except Failure α) :
    outcome (ofExcept result) scene world = (result, world) := by cases result <;> rfl

/-- A question leaves the world as it is. -/
@[simp] theorem outcome_ask (question : FileSystem → Except Failure α) :
    outcome (ask question) scene world = (question world.files, world) := by simp [ask]

/-- A refused change leaves the world as it is. -/
@[simp] theorem outcome_change (step : FileSystem → Except Failure FileSystem) :
    outcome (change step) scene world =
      match step world.files with
      | .ok files => (.ok (), { world with files := files })
      | .error failure => (.error failure, world) := by
  cases h : step world.files with
  | ok files =>
    simp [change, h]
    rfl
  | error failure => simp [change, h]

@[simp] theorem outcome_clock :
    outcome clock scene world =
      (scene.host.clock world.clockCalls, { world with clockCalls := world.clockCalls + 1 }) := by
  change outcome (ofExcept _) scene _ = _
  simp

@[simp] theorem outcome_load :
    outcome load scene world =
      (scene.host.load world.loadCalls, { world with loadCalls := world.loadCalls + 1 }) := by
  change outcome (ofExcept _) scene _ = _
  simp

end Outcomes

end Shell

end DriveShell
