import DriveShell.Proofs.Gaps
import DriveShell.Proofs.SpokenCommands
import DriveShell.Proofs.ValidNames

/-!
# Going home

A session starts in the canonical form of its home.  `go home` gets there by another route.  The
home is put behind `cd` as it is spelled, the line is cut into words, and `cd` joins these again
with single spaces.  So what is entered is the evened home, and the two routes meet only if
evening does not change where the home leads.

It does not, because a session has started.  Then the segments that are left of the home are
names in the reference forest, where no name has a blank at an end or two in a row
(`tidy_of_start`).  The segments that are dropped may have any blanks.  The first and the last
segment cannot, even if they are dropped: the first one that steps down stays, and so does the
last, and what does not step down has no blanks (`ends_of_settled`).  So nothing is lost when
the home is trimmed either.
-/

namespace DriveShell

/-! ## Tidy names -/

/-- Whether a text begins with neither a blank nor a slash, does not end with a blank, and has no
gaps but single spaces. -/
def Text.isTidy (t : Text) : Bool :=
  t.head?.all (fun c => !isBlank c && c ≠ '/') && t.getLast?.all (!isBlank ·) && evened t = t

theorem Text.isTidy_iff {t : Text} : isTidy t = true ↔
    (∀ c ∈ t.head?, isBlank c = false ∧ c ≠ '/') ∧ (∀ c ∈ t.getLast?, isBlank c = false) ∧
      evened t = t := by
  simp [isTidy, Option.all_eq_true, and_assoc]

theorem Reference.names_tidy : drives.allNames Text.isTidy = true := by decide +kernel

/-! ## The ends of a path -/

namespace Path

/-- A segment that stays if it steps down is as tidy as those that stay.  Those that do not step
down are tidy themselves. -/
theorem isTidy_of_settled {segments : List Text} {segment : Text}
    (tidy : ∀ s ∈ settle segments, Text.isTidy s = true)
    (stays : isProper segment = true → segment ∈ settle segments) :
    Text.isTidy segment = true := by
  by_contra untidy
  refine untidy (tidy segment (stays (isProper_iff.2 ⟨?_, ?_, ?_⟩)))
  · rintro rfl
    exact untidy (by decide)
  · rintro rfl
    exact untidy (by decide)
  · rintro rfl
    exact untidy (by decide)

/-- A path begins and ends as tidily as the segments that are left of it. -/
theorem ends_of_settled {path : Text}
    (tidy : ∀ s ∈ settle (Text.split delimiter path), Text.isTidy s = true) :
    (∀ c ∈ path.head?, Text.isBlank c = false ∧ c ≠ '/') ∧
      ∀ c ∈ path.getLast?, Text.isBlank c = false := by
  constructor
  · intro c hc
    rcases Text.head?_pieces delimiter hc with rfl | hfirst
    · exact ⟨by decide, by decide⟩
    · have htidy := isTidy_of_settled tidy fun proper => mem_settle_first proper _
      exact (Text.isTidy_iff.1 htidy).1 c hfirst
  · intro c hc
    obtain ⟨before, last, hsplit, rfl | hlast⟩ := Text.getLast?_split delimiter hc
    · decide
    · rw [hsplit] at tidy
      have htidy := isTidy_of_settled tidy fun proper => mem_settle_last proper before
      exact (Text.isTidy_iff.1 htidy).2.1 c hlast

end Path

/-! ## The home of a session -/

theorem Config.colon_of_check {config : Config} (h : config.check = .ok ()) :
    ':' ∈ config.home := by
  by_contra colonless
  have hcontains : config.home.contains ':' = false := by simpa using colonless
  rw [check, hcontains] at h
  split at h
  next => cases h
  next => cases h

namespace FileSystem

variable {fs : FileSystem} {config : Config}

/-- Where a session can start, the segments that are left of the home are tidy. -/
theorem tidy_of_start (h : start Reference.drives config = .ok fs) :
    ∀ s ∈ Path.settle (Text.split Path.delimiter config.home), Text.isTidy s = true := by
  obtain ⟨⟨children, hfound⟩, -⟩ := start_eq_ok.1 h
  rw [Path.segments_canonical] at hfound
  exact Directory.allNames_find? Reference.names_tidy hfound

/-- The evened home leads to where the session has started, from wherever it is. -/
theorem resolve_evened_home (h : start Reference.drives config = .ok fs)
    (colon : ':' ∈ config.home) (other : FileSystem) :
    other.resolve (Text.evened config.home) = fs.cwd := by
  have hcolon : ':' ∈ Text.evened config.home := (Text.mem_evened (by decide)).2 colon
  have hjoined : other.joined (Text.evened config.home) = Text.evened config.home :=
    if_pos (List.contains_iff_mem.2 hcolon)
  obtain ⟨-, rfl⟩ := start_eq_ok.1 h
  rw [resolve, hjoined]
  exact Path.canonical_evened fun s hs => (Text.isTidy_iff.1 (tidy_of_start h s hs)).2.2

end FileSystem

/-! ## Entering a path with gaps -/

/-- `cd` with a path that is written without quotes enters the evened path. -/
theorem Registry.outcome_cd_evened {path : Text} (nonempty : path ≠ [])
    (plain : ∀ c ∈ path, c ≠ '"' ∧ c ≠ '>')
    (first : ∀ c ∈ path.head?, Text.isBlank c = false ∧ c ≠ '/')
    (last : ∀ c ∈ path.getLast?, Text.isBlank c = false) (scene : Scene) (world : World) :
    (builtin.runLine (Text.join [' '] ["cd", path])).outcome scene world =
      (do Shell.change (·.enter (Text.evened path)); return .none : Shell Output).outcome
        scene world := by
  have hunquoted : '"' ∉ path := fun hmem => (plain _ hmem).1 rfl
  obtain ⟨words, hscan, hwords, hjoin⟩ :=
    Words.cutInto_evened hunquoted nonempty (fun c hc => (first c hc).1) last
  have hline : Words.ofLine (Text.join [' '] ["cd", path]) = .ok ("cd".toList :: words) := by
    have hparted : Words.Parted (' ' :: path) := by
      rintro c ⟨⟩
      decide
    rw [Text.join_cons_cons, Text.join_singleton, List.append_assoc, List.singleton_append,
      Words.ofLine, Words.scan_spelled bare_cd.spelled hparted, Words.scan_blank (by decide), hscan]
    rfl
  have hplain : ∀ w ∈ "cd".toList :: words, w.head? ≠ some '>' := by
    refine List.forall_mem_cons.2 ⟨by decide, fun w hw hhead => ?_⟩
    have hmem : '>' ∈ Text.evened path := by
      rw [← hjoin]
      exact Text.mem_join hw (List.mem_of_mem_head? hhead)
    exact (plain _ ((Text.mem_evened (by decide)).1 hmem)).2 rfl
  obtain ⟨word, others, rfl⟩ := List.exists_cons_of_ne_nil hwords
  have notSwitch : word.head? ≠ some '/' := by
    intro hhead
    have hslash : path.head? = some '/' := by
      rw [← Text.head?_evened fun c hc => (first c hc).1, ← hjoin]
      exact Text.head?_join hhead others
    exact (first _ hslash).2 rfl
  rw [outcome_cut hline hplain, outcome_execute_cd notSwitch, hjoin]

theorem Interpretation.reads_go_home {home : Text} (nonempty : home ≠ [])
    (clean : Rule.clean home = home) : Reads home "go home" ["cd", home] 8 := by
  have hfirst : Rule.first? "go home" = some (
      { pattern := .inOrder [.perhaps (.next (.word "go") .gap),
          .oneOf (.word "home") [.phrase "back" ["home"]]]
        verb := "cd", tenths := 8, arguments := [.home] }, []) := by
    decide +kernel
  refine reads_phrase home (by decide) (by decide) (by decide) hfirst ?_
  simp [Rule.command, Rule.raw, clean, nonempty]

/-! ## Going home after any inputs -/

namespace Session

variable {s : Session} {config : Config} {host : Host}

/-- In a session with settings that allow one to start, `go home` enters the evened home. -/
theorem outcome_go_home {t : Session} (started : start config host = .ok s)
    (settings : t.config = config) (plain : ∀ c ∈ config.home, c ≠ '\x27' ∧ c ≠ '"' ∧ c ≠ '>') :
    t.outcome "go home" =
      (do Shell.change (·.enter (Text.evened config.home)); return .none : Shell Output).outcome
        t.scene t.world := by
  obtain ⟨hcheck, hfiles, -⟩ := of_start_eq_ok started
  have nonempty : config.home ≠ [] := List.ne_nil_of_mem (Config.colon_of_check hcheck)
  obtain ⟨first, last⟩ := Path.ends_of_settled (FileSystem.tidy_of_start hfiles)
  have hclean : Rule.clean config.home = config.home :=
    Rule.clean_eq_self (fun c hc => ⟨(plain c hc).1, (plain c hc).2.1⟩)
      (fun c hc => (first c hc).1) last
  have reads : Interpretation.Reads t.config.home "go home" ["cd", config.home] 8 := by
    rw [settings]
    exact Interpretation.reads_go_home nonempty hclean
  rw [outcome_of_reads reads]
  exact Registry.outcome_cd_evened nonempty (fun c hc => (plain c hc).2) first last _ _

/-- From every session that has started, and after any inputs, `go home` leads back to where the
session has started if there is still a directory.  Otherwise it fails, and the session stays
where it is.  The home may be spelled in any way, as long as it holds no quote and no `>`. -/
theorem go_home (started : start config host = .ok s)
    (plain : ∀ c ∈ config.home, c ≠ '\x27' ∧ c ≠ '"' ∧ c ≠ '>') (inputs : List Text) :
    let t := s.submits inputs
    ∃ submission after, t.submit "go home" = (some submission, after) ∧
      ((∃ children, t.world.files.lookup s.cwd = some (.directory children)) →
        submission.success = true ∧ after.cwd = s.cwd) ∧
      ((¬∃ children, t.world.files.lookup s.cwd = some (.directory children)) →
        submission.success = false ∧ after.cwd = t.cwd) := by
  intro t
  obtain ⟨hcheck, hfiles, hscene⟩ := of_start_eq_ok started
  have settings : t.config = config := by rw [Session.config, scene_submits, hscene]
  have hresolve : t.world.files.resolve (Text.evened config.home) = s.cwd :=
    FileSystem.resolve_evened_home hfiles (Config.colon_of_check hcheck) t.world.files
  have hfind : t.world.files.find? (Text.evened config.home) = t.world.files.lookup s.cwd :=
    congrArg t.world.files.lookup hresolve
  have houtcome := outcome_go_home started settings plain
  have nonblank : Text.trim "go home" ≠ [] := by decide
  obtain ⟨submission, hsubmission, answered⟩ := t.answered_submit nonblank
  have hworld := world_submit t nonblank
  refine ⟨submission, (t.submit "go home").2, by rw [← hsubmission], fun still => ?_,
    fun gone => ?_⟩
  · rw [← hfind] at still
    rw [FileCommands.outcome_enter (FileSystem.enter_eq_ok.2 ⟨still, rfl⟩)] at houtcome
    refine ⟨by rw [answered.success, houtcome]; rfl, ?_⟩
    rw [cwd, hworld, houtcome]
    exact hresolve
  · rw [← hfind] at gone
    obtain ⟨failure, hfailure⟩ := FileCommands.outcome_enter_other gone t.scene
    rw [hfailure] at houtcome
    refine ⟨by rw [answered.success, houtcome]; rfl, ?_⟩
    rw [cwd, hworld, houtcome, cwd]

/-- The home is spelled with a dropped segment, which has gaps, and with delimiters too many.
It is found again from the directory above.  It is not when it has been removed there. -/
theorem go_home_removed :
    let config : Config := { home := "C:\\a \t b\\..\\\\Program Files\\Microsoft Office\\." }
    let leaving : List Text := ["cd .."]
    let removing : List Text := ["cd ..", "rmdir \"Microsoft Office\""]
    ∃ s, start config Registry.epoch.host = .ok s ∧
      (∀ c ∈ config.home, c ≠ '\x27' ∧ c ≠ '"' ∧ c ≠ '>') ∧
      (∃ submission after,
        (s.submits leaving).submit "go home" = (some submission, after) ∧
          submission.success = true ∧ after.cwd = s.cwd) ∧
      ∃ submission after,
        (s.submits removing).submit "go home" = (some submission, after) ∧
          submission.success = false ∧ after.cwd = (s.submits removing).cwd := by
  intro config leaving removing
  have hcheck : config.check = .ok () := by decide +kernel
  have hplain : ∀ c ∈ config.home, c ≠ '\x27' ∧ c ≠ '"' ∧ c ≠ '>' := by simp [config]
  have hstart := start_eq_ok hcheck rfl Registry.epoch.host
  refine ⟨_, hstart, hplain, ?_, ?_⟩
  · obtain ⟨submission, after, hsubmit, still, -⟩ := go_home hstart hplain leaving
    refine ⟨submission, after, hsubmit, still ⟨.empty, ?_⟩⟩
    decide +kernel
  · obtain ⟨submission, after, hsubmit, -, gone⟩ := go_home hstart hplain removing
    refine ⟨submission, after, hsubmit, gone ?_⟩
    rintro ⟨children, hchildren⟩
    exact absurd (Option.isSome_of_eq_some hchildren) (by decide +kernel)

end Session

end DriveShell
