import DriveShell.Proofs.DistinctNames
import DriveShell.Proofs.LetterCase
import DriveShell.Proofs.Observations
import DriveShell.Proofs.Redirection
import DriveShell.Proofs.SpokenNames
import DriveShell.Proofs.Submissions
import DriveShell.Proofs.WrittenCommands

/-!
# Phrases that make a folder

Four phrases are followed here from the input to the tree: one makes a directory, one enters
it, one makes a file, and one goes back.  Each has its own lemma (`succeeds_create_folder` to
`succeeds_go_back`), which says when the phrase succeeds, how sure its reading is, and what
file system it leaves.

The names in the phrases are any speakable ones.  Such a name is a word on the command line,
and it is neither an operator nor a switch.  So it reaches the call of the file system as it
was spoken.  The changes that the four phrases make, at a directory and at one below it, add
up to a single insertion (`folder_with_file`).
-/

namespace DriveShell

theorem FileCommands.withoutDriveSwitch_cons {word : Text} (notSwitch : word.head? ≠ some '/')
    (words : List Text) : withoutDriveSwitch (word :: words) = word :: words := by
  refine if_neg fun hsame => ?_
  have hlower : Text.lower word = Text.lower "/d" := of_decide_eq_true hsame
  cases word with
  | nil => cases hlower
  | cons c word =>
    have hc : c.toLower = '/' := (List.cons_eq_cons.1 hlower).1
    exact notSwitch (congrArg some (Text.eq_of_toLower_eq hc (by decide)))

/-- A directory is entered. -/
theorem FileCommands.outcome_enter {path : Text} {world : World} {after : FileSystem}
    (h : world.files.enter path = .ok after) (scene : Scene) :
    (do Shell.change (·.enter path); return .none : Shell Output).outcome scene world =
      (.ok .none, { world with files := after }) := by
  rw [outcome_change_return, h]

/-- What is no directory is not entered, and then nothing changes. -/
theorem FileCommands.outcome_enter_other {path : Text} {world : World}
    (h : ¬∃ children, world.files.find? path = some (.directory children)) (scene : Scene) :
    ∃ failure, (do Shell.change (·.enter path); return .none : Shell Output).outcome scene world =
      (.error failure, world) := by
  rw [outcome_change_return]
  cases henter : world.files.enter path with
  | ok after => exact absurd (FileSystem.enter_eq_ok.1 henter).1 h
  | error failure => exact ⟨failure, rfl⟩

/-! ## Lines of bare words -/

/-- A word that can stand bare on a line. -/
structure Words.Bare (word : Text) : Prop where
  nonempty : word ≠ []
  unquoted : '"' ∉ word
  solid : ∀ c ∈ word, Text.isBlank c = false

theorem Words.Bare.spelled {word : Text} (h : Words.Bare word) : Words.Spelled word word :=
  .bare h.nonempty h.unquoted h.solid

theorem Name.Speakable.bare {name : Name} (h : name.Speakable) : Words.Bare name :=
  ⟨h.nonempty, h.unquoted.2, h.solid⟩

namespace Registry

variable {scene : Scene} {world : World} {name : Name}

theorem parts_join {words : List Text} (h : ∀ w ∈ words, Words.Bare w) :
    parts (Text.join [' '] words) = Redirect.extract words := by
  refine parts_of_words (Words.ofLine_spread (Words.spread_join words) ?_)
  exact List.forall₂_same.2 fun w hw => (h w hw).spelled

/-- Bare words of which none begins with `>` are run as they stand. -/
theorem outcome_join {verb : Text} {arguments : List Text}
    (h : ∀ w ∈ verb :: arguments, Words.Bare w)
    (plain : ∀ w ∈ verb :: arguments, w.head? ≠ some '>') :
    (builtin.runLine (Text.join [' '] (verb :: arguments))).outcome scene world =
      (builtin.execute verb arguments).outcome scene world := by
  have hspelled : List.Forall₂ Words.Spelled (verb :: arguments) (verb :: arguments) :=
    List.forall₂_same.2 fun w hw => (h w hw).spelled
  exact outcome_spelled (Words.spread_join _) hspelled plain scene world

/-- `mkdir` with a name makes the directory that is asked for. -/
theorem outcome_mkdir (h : name.Speakable) {after : FileSystem}
    (hmake : world.files.makeDirectory name = .ok after) :
    (builtin.runLine (Text.join [' '] ["mkdir", name])).outcome scene world =
      (.ok .none, { world with files := after }) := by
  have hmem : FileCommands.mkdir ∈ builtin.commands := by simp [builtin, FileCommands.all]
  have hverb : Words.Bare "mkdir" := ⟨by decide, by decide, Text.solid_of_all (by decide)⟩
  rw [outcome_join (List.forall_mem_cons.2 ⟨hverb, List.forall_mem_singleton.2 h.bare⟩)
      (List.forall_mem_cons.2 ⟨by decide, List.forall_mem_singleton.2 h.plain⟩),
    outcome_listed hmem (by decide) [name] (Nat.le_refl 1)]
  simp only [FileCommands.mkdir, FileCommands.outcome_change_return, hmake]

theorem bare_cd : Words.Bare "cd" :=
  ⟨by decide, by decide, Text.solid_of_all (by decide)⟩

/-- `cd` takes arguments that do not begin with a switch as one path. -/
theorem outcome_execute_cd {word : Text} (notSwitch : word.head? ≠ some '/') (words : List Text)
    (scene : Scene) (world : World) :
    (builtin.execute "cd" (word :: words)).outcome scene world =
      (do Shell.change (·.enter (Text.join [' '] (word :: words))); return .none :
        Shell Output).outcome scene world := by
  have hmem : FileCommands.cd ∈ builtin.commands := by simp [builtin, FileCommands.all]
  rw [outcome_listed hmem (by decide) _ (Nat.zero_le _)]
  simp only [FileCommands.cd, FileCommands.withoutDriveSwitch_cons notSwitch]

/-- `cd` with a word that is no switch enters the directory that it leads to. -/
theorem outcome_cd {word : Text} (bare : Words.Bare word) (plain : word.head? ≠ some '>')
    (notSwitch : word.head? ≠ some '/') {after : FileSystem}
    (henter : world.files.enter word = .ok after) :
    (builtin.runLine (Text.join [' '] ["cd", word])).outcome scene world =
      (.ok .none, { world with files := after }) := by
  rw [outcome_join (List.forall_mem_cons.2 ⟨bare_cd, List.forall_mem_singleton.2 bare⟩)
      (List.forall_mem_cons.2 ⟨by decide, List.forall_mem_singleton.2 plain⟩),
    outcome_execute_cd notSwitch, Text.join_singleton, FileCommands.outcome_enter henter]

/-- `echo` without words puts out the empty text, which makes an empty file. -/
theorem outcome_echo_into (standing : world.files.Standing) (h : name.Speakable)
    (fresh : world.files.here.get? name = none) :
    (builtin.runLine (Text.join [' '] ["echo", ">", name])).outcome scene world =
      (.ok .none, { world with files := world.files.writeFile name [] }) := by
  have hverb : Words.Bare "echo" := ⟨by decide, by decide, Text.solid_of_all (by decide)⟩
  have hoperator : Words.Bare ">" := ⟨by decide, by decide, Text.solid_of_all (by decide)⟩
  have hparts : parts (Text.join [' '] ["echo", ">", name]) =
      .ok (["echo"], some ⟨name, false⟩) := by
    have hextract : Redirect.extract (["echo".toList] ++ ['>'] :: name :: []) =
        .ok (["echo".toList] ++ [], some ⟨name, false⟩) :=
      Redirect.extract_operator (by decide) rfl rfl name []
    rw [parts_join (List.forall_mem_cons.2
      ⟨hverb, List.forall_mem_cons.2 ⟨hoperator, List.forall_mem_singleton.2 h.bare⟩⟩)]
    exact hextract
  simp only [outcome_runLine, hparts, outcome_runWords, outcome_echo, Text.join_nil]
  rw [Redirect.apply_valid standing h.valid, fresh]
  rfl

end Registry

/-! ## Phrases in a session -/

namespace Session

variable {s : Session} {x y : Name}

/-- An input succeeds, with a reading that is as sure as so many tenths, and leaves a session. -/
structure Succeeds (s : Session) (input : Text) (tenths : Nat) (after : Session) : Prop where
  /-- How sure the reading is. -/
  confidence : (s.explain input).confidence = Format.single.ofDecimal false tenths (-1)
  /-- The answer reports success. -/
  answer : ∃ submission, s.submit input = (some submission, after) ∧ submission.success = true

/-- What an input gives is what the words that it stands for give. -/
theorem outcome_of_reads {input : Text} {words : List Text} {tenths : Nat}
    (reads : Interpretation.Reads s.config.home input words tenths) :
    s.outcome input =
      (Registry.builtin.runLine (Text.join [' '] words)).outcome s.scene s.world := by
  have hline : s.commandLine input = Text.join [' '] words := by
    rw [commandLine, explain, Interpretation.ofInput_trim]
    exact reads.command
  rw [outcome, hline]

/-- An input succeeds if the words that it stands for do. -/
theorem succeeds_of_outcome {input : Text} {words : List Text} {tenths : Nat}
    (reads : Interpretation.Reads s.config.home input words tenths) {output : Output}
    {world : World}
    (h : (Registry.builtin.runLine (Text.join [' '] words)).outcome s.scene s.world =
      (.ok output, world)) :
    ∃ after, s.Succeeds input tenths after ∧ after.world = world := by
  have houtcome : s.outcome input = (.ok output, world) := (outcome_of_reads reads).trans h
  obtain ⟨submission, hsubmission, answered⟩ := s.answered_submit reads.nonblank
  refine ⟨(s.submit input).2, ⟨reads.confidence, submission, ?_, ?_⟩, ?_⟩
  · rw [← hsubmission]
  · rw [answered.success, houtcome]
    rfl
  · rw [world_submit s reads.nonblank, houtcome]

/-- `create folder X` makes the directory. -/
theorem succeeds_create_folder (h : x.Speakable) (fresh : s.world.files.here.get? x = none) :
    ∃ after, s.Succeeds ("create folder " ++ x) 9 after ∧
      after.world.files = s.world.files.updateHere (·.insert x (.directory .empty)) := by
  have hmake := FileSystem.makeDirectory_eq_ok.2 ⟨h.valid, fresh, rfl⟩
  obtain ⟨after, succeeds, hworld⟩ := succeeds_of_outcome
    (Interpretation.reads_create_folder h s.config.home) (Registry.outcome_mkdir h hmake)
  exact ⟨after, succeeds, by rw [hworld]⟩

/-- `go to X` enters the directory. -/
theorem succeeds_go_to (h : x.Speakable) {files : FileSystem}
    (henter : s.world.files.enter x = .ok files) :
    ∃ after, s.Succeeds ("go to " ++ x) 9 after ∧ after.world.files = files := by
  obtain ⟨after, succeeds, hworld⟩ := succeeds_of_outcome
    (Interpretation.reads_go_to h s.config.home)
    (Registry.outcome_cd h.bare h.plain h.notSwitch henter)
  exact ⟨after, succeeds, by rw [hworld]⟩

/-- `create file Y` makes an empty file. -/
theorem succeeds_create_file (standing : s.world.files.Standing) (h : y.Speakable)
    (fresh : s.world.files.here.get? y = none) :
    ∃ after, s.Succeeds ("create file " ++ y) 7 after ∧
      after.world.files = s.world.files.writeFile y [] := by
  obtain ⟨after, succeeds, hworld⟩ := succeeds_of_outcome
    (Interpretation.reads_create_file h s.config.home)
    (Registry.outcome_echo_into standing h fresh)
  exact ⟨after, succeeds, by rw [hworld]⟩

/-- `go back` enters the directory above. -/
theorem succeeds_go_back (standing : s.world.files.Standing) :
    ∃ after, s.Succeeds "go back" 8 after ∧
      after.world.files = { s.world.files with cwd := s.world.files.resolve Path.above } := by
  have henter := FileSystem.enter_eq_ok.2 ⟨standing.find?_above, rfl⟩
  have hbare : Words.Bare Path.above := ⟨by decide, by decide, Text.solid_of_all (by decide)⟩
  obtain ⟨after, succeeds, hworld⟩ := succeeds_of_outcome
    (Interpretation.reads_go_back s.config.home)
    (Registry.outcome_cd hbare (by decide) (by decide) henter)
  exact ⟨after, succeeds, by rw [hworld]⟩

end Session

/-! ## The four phrases in a row -/

/-- A change at a new child is a change of what is inserted. -/
theorem Directory.updateAt_insert (d children : Directory) (name : Name)
    (change : Directory → Directory) :
    (d.insert name (.directory children)).updateAt change [name] =
      d.insert name (.directory (change children)) := by
  rw [updateAt_cons_some (sub?_eq_some.2 (get?_insert_self d name _)), insert_insert]
  rfl

/-- To change a directory that was just put in place, from inside it, and to go back is to put
the changed directory in place. -/
theorem FileSystem.updateHere_below {fs : FileSystem} (h : fs.Standing) {name : Name}
    (valid : Path.isValidName name = true) (children : Directory)
    (change : Directory → Directory) :
    let placed := fs.updateHere (·.insert name (.directory children))
    let entered := { placed with cwd := Path.child fs.cwd name }
    { entered.updateHere change with cwd := fs.cwd } =
      fs.updateHere (·.insert name (.directory (change children))) := by
  intro placed entered
  have hdrives : (entered.updateHere change).drives =
      (fs.updateHere (·.insert name (.directory (change children)))).drives := by
    simp only [placed, entered, updateHere, h.segments_child valid, Directory.updateAt_append,
      Directory.updateAt_updateAt]
    refine congrArg (fs.drives.updateAt · (Path.segments fs.cwd)) (funext fun d => ?_)
    exact d.updateAt_insert children name change
  exact congrArg (fun drives => { fs with drives := drives }) hdrives

/-- The directory above a child is where the child is. -/
theorem FileSystem.Standing.resolve_above {fs after : FileSystem} (h : fs.Standing) {name : Name}
    (free : Path.hasReserved name = false) (cwd : after.cwd = Path.child fs.cwd name) :
    after.resolve Path.above = fs.cwd := by
  have hjoined : after.joined Path.above = Path.parent after.cwd := rfl
  rw [resolve, hjoined, cwd, Path.parent_child _ (plain_of_free free), h.canonical_cwd]

namespace Session

variable {s : Session} {x y : Name}

/-- The first two phrases lead into a new directory, which is empty. -/
theorem succeeds_into_folder (standing : s.world.files.Standing) (hx : x.Speakable)
    (fresh : s.world.files.here.get? x = none) :
    ∃ first second, s.Succeeds ("create folder " ++ x) 9 first ∧
      first.Succeeds ("go to " ++ x) 9 second ∧
      second.world.files = { s.world.files.updateHere (·.insert x (.directory .empty)) with
        cwd := Path.child s.world.files.cwd x } ∧
      second.world.files.Standing ∧ second.world.files.here = .empty := by
  obtain ⟨first, hfirst, hmade⟩ := succeeds_create_folder hx fresh
  have hstands : first.world.files.Standing := by
    rw [hmade]
    exact standing.updateHere _
  have hchild : first.world.files.find? x = some (.directory .empty) := by
    rw [hstands.find?_valid hx.valid, hmade, standing.here_updateHere, Directory.get?_insert_self]
  have henter := FileSystem.enter_eq_ok.2 ⟨⟨_, hchild⟩, rfl⟩
  obtain ⟨second, hsecond, hentered⟩ := succeeds_go_to hx henter
  refine ⟨first, second, hfirst, hsecond, ?_, ?_, ?_⟩
  · rw [hentered, hstands.resolve_valid hx.valid, hmade]
    rfl
  · rw [hentered]
    exact FileSystem.Standing.enter henter
  · have hhere : second.world.files.lookup second.world.files.cwd = some (.directory .empty) := by
      rw [hentered]
      exact hchild
    rw [FileSystem.here, FileSystem.here?, hhere]
    rfl

/-- From every reachable session, and for all speakable names of which the first is not taken,
the four phrases succeed with these confidences.  They leave the same current path, and the
old tree with one new entry at the end of the current directory: a directory of the first
name, whose only child is the empty file of the second. -/
theorem folder_with_file (reachable : s.Reachable) (hx : x.Speakable) (hy : y.Speakable)
    (fresh : s.world.files.here.get? x = none) :
    ∃ first second third fourth,
      s.Succeeds ("create folder " ++ x) 9 first ∧
      first.Succeeds ("go to " ++ x) 9 second ∧
      second.Succeeds ("create file " ++ y) 7 third ∧
      third.Succeeds "go back" 8 fourth ∧
      let folder := Node.directory (.entry y (.file []) .empty)
      fourth.cwd = s.cwd ∧
      fourth.world.files = s.world.files.updateHere (·.insert x folder) ∧
      fourth.world.files.here.toList = s.world.files.here.toList ++ [(x, folder)] := by
  have standing : s.world.files.Standing := reachable.files.standing
  obtain ⟨first, second, hfirst, hsecond, hentered, hinside, hempty⟩ :=
    succeeds_into_folder standing hx fresh
  obtain ⟨third, hthird, hwritten⟩ := succeeds_create_file hinside hy (by rw [hempty]; rfl)
  have hstill : third.world.files.Standing := by
    rw [hwritten]
    exact hinside.updateHere _
  obtain ⟨fourth, hfourth, hleft⟩ := succeeds_go_back hstill
  -- `go back` leads up from the new directory, so to where the first phrase was spoken.
  have hback : third.world.files.resolve Path.above = s.world.files.cwd := by
    refine standing.resolve_above hx.free ?_
    rw [hwritten, hentered]
    rfl
  have hfiles : fourth.world.files = s.world.files.updateHere
      (·.insert x (.directory (.entry y (.file []) .empty))) := by
    have hbelow := FileSystem.updateHere_below standing hx.valid .empty (·.insert y (.file []))
    rw [hleft, hback, hwritten, hentered]
    exact hbelow
  refine ⟨first, second, third, fourth, hfirst, hsecond, hthird, hfourth, ?_, hfiles, ?_⟩
  · rw [cwd, hfiles]
    rfl
  · rw [hfiles, standing.here_updateHere, Directory.toList_insert_of_free fresh]

/-- In the home of the reference forest, with names that hold words of other phrases. -/
theorem folder_with_file_home :
    ∃ s, start {} Registry.epoch.host = .ok s ∧ Name.Speakable "help" ∧
      Name.Speakable "-a>b" ∧ s.world.files.here.get? "help" = none ∧
      ∃ first second third fourth,
        s.Succeeds ("create folder " ++ "help".toList) 9 first ∧
        first.Succeeds ("go to " ++ "help".toList) 9 second ∧
        second.Succeeds ("create file " ++ "-a>b".toList) 7 third ∧
        third.Succeeds "go back" 8 fourth ∧
        let folder := Node.directory (.entry "-a>b" (.file []) .empty)
        fourth.cwd = s.cwd ∧
        fourth.world.files = s.world.files.updateHere (·.insert "help" folder) ∧
        fourth.world.files.here.toList =
          s.world.files.here.toList ++ [("help".toList, folder)] := by
  have hcheck : Config.check {} = .ok () := by decide +kernel
  have hstart := start_eq_ok hcheck rfl Registry.epoch.host
  have hx : Name.Speakable "help" :=
    ⟨by decide, Text.solid_of_all (by decide), by decide, by decide⟩
  have hy : Name.Speakable "-a>b" :=
    ⟨by decide, Text.solid_of_all (by decide), by decide, by decide⟩
  exact ⟨_, hstart, hx, hy, rfl, folder_with_file (.started hstart) hx hy rfl⟩

end Session

end DriveShell
