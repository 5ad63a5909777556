import DriveShell.Proofs.Observations
import DriveShell.Proofs.WrittenCommands

/-!
# Files that grow

Lines such as `echo "a" >> "notes"` collect texts in a file.  Each of them puts a line break
in front of its text, but not in an empty file: there is nothing to separate the text from.
So an empty text counts as a line of its own further down and leaves no trace at the
beginning, where the file stays empty.

A line writes the whole content anew, and what it wrote is all that the next line looks at
(`outcome_appendLine`).  So a run of such lines has the effect of a single write
(`runLines_append`), and its content is a fold over the texts.  The fold has a closed form:
the texts from the first that is not empty on, with line breaks between them
(`foldl_extended`).
-/

namespace DriveShell

/-! ## The content -/

namespace Text

/-- A content with one more text behind it, on a new line unless there was nothing. -/
def extended (content t : Text) : Text := if content = [] then t else content ++ '\n' :: t

/-- The texts from the first that is not empty on, with a line break between neighbours. -/
def inLines (texts : List Text) : Text := join ['\n'] (texts.dropWhile (· = []))

theorem extended_nil (t : Text) : extended [] t = t := if_pos rfl

theorem extended_of_ne_nil {content : Text} (h : content ≠ []) (t : Text) :
    extended content t = content ++ '\n' :: t := if_neg h

/-- Two texts with the separator between them are one text of a join. -/
theorem join_merge (separator s t : Text) (texts : List Text) :
    join separator ((s ++ separator ++ t) :: texts) = join separator (s :: t :: texts) := by
  cases texts with
  | nil => simp [join_cons_cons]
  | cons u texts => simp [join_cons_cons]

/-- Behind a content that is not empty, every text gets a line of its own. -/
theorem foldl_extended_of_ne_nil {content : Text} (h : content ≠ []) (texts : List Text) :
    texts.foldl extended content = join ['\n'] (content :: texts) := by
  induction texts generalizing content with
  | nil => simp
  | cons t texts ih =>
    have hmore : content ++ ['\n'] ++ t ≠ [] := by simp
    have hnext : extended content t = content ++ ['\n'] ++ t := by
      simp [extended_of_ne_nil h]
    rw [List.foldl_cons, hnext, ih hmore, join_merge]

theorem foldl_extended (texts : List Text) : texts.foldl extended [] = inLines texts := by
  induction texts with
  | nil => rfl
  | cons t texts ih =>
    rw [List.foldl_cons, extended_nil]
    by_cases ht : t = []
    · rw [ht, ih]
      simp [inLines]
    · rw [foldl_extended_of_ne_nil ht]
      simp [inLines, ht]

end Text

theorem Redirect.content_append (target output : Text) (existing : Text) :
    content ⟨target, true⟩ output (some (.file existing)) = Text.extended existing output := by
  simp only [content, Text.extended, true_and, ite_not]

/-! ## Writing again -/

/-- Of two contents written under the same name, the second is left. -/
theorem FileSystem.writeFile_writeFile (fs : FileSystem) (name : Name) (first second : Text) :
    (fs.writeFile name first).writeFile name second = fs.writeFile name second := by
  have htwice : ((·.insert name (.file second)) ∘ (·.insert name (.file first)) :
      Directory → Directory) = (·.insert name (.file second)) := by
    funext d
    exact d.insert_insert name _ _
  simp only [writeFile, updateHere, Directory.updateAt_updateAt, htwice]

theorem FileSystem.Standing.here_writeFile {fs : FileSystem} (h : fs.Standing) (name : Name)
    (content : Text) : (fs.writeFile name content).here = fs.here.insert name (.file content) :=
  h.here_updateHere _

/-! ## Lines that append -/

namespace Registry

variable {scene : Scene} {world : World} {target text : Text} {texts : List Text}

/-- The line that appends a text to a file. -/
def appendLine (target text : Text) : Text :=
  Text.join [' '] ["echo", Words.quoted text, ">>", Words.quoted target]

theorem parts_appendLine (unquoted : '"' ∉ target) (plain : '"' ∉ text ∧ text.head? ≠ some '>') :
    parts (appendLine target text) = .ok (["echo", text], some ⟨target, true⟩) := by
  have hoperator : Words.Spelled ">>" ">>" :=
    .bare (by decide) (by decide) (Text.solid_of_all (by decide))
  have hspelled : List.Forall₂ Words.Spelled ["echo", text, ">>", target]
      ["echo", Words.quoted text, ">>", Words.quoted target] :=
    .cons spelled_echo (.cons (.quoted plain.1) (.cons hoperator (.cons (.quoted unquoted) .nil)))
  have hbefore : ∀ w ∈ (["echo".toList, text] : List Text), w.head? ≠ some '>' := by
    intro w hw
    rcases List.mem_pair.1 hw with rfl | rfl
    · decide
    · exact plain.2
  rw [appendLine, parts_of_words (Words.ofLine_spread (Words.spread_join _) hspelled)]
  exact Redirect.extract_operator hbefore rfl rfl target []

/-- Unless a directory stands under the target, the line succeeds and writes the target. -/
theorem outcome_appendLine (standing : world.files.Standing)
    (valid : Path.isValidName target = true) (unquoted : '"' ∉ target)
    (plain : '"' ∉ text ∧ text.head? ≠ some '>') :
    (builtin.runLine (appendLine target text)).outcome scene world =
      match world.files.here.get? target with
      | some (.directory _) => (.error (.accessDenied target), world)
      | node => (.ok .none, { world with
          files := world.files.writeFile target (Redirect.content ⟨target, true⟩ text node) }) := by
  simp only [outcome_runLine, parts_appendLine unquoted plain, outcome_runWords, outcome_echo,
    Text.join_singleton, Output.redirected, Redirect.apply_valid standing valid]
  cases world.files.here.get? target with
  | none => rfl
  | some node =>
    cases node with
    | file content => rfl
    | directory children => rfl

/-- After a write, a line that appends to the file has the effect of one more write. -/
theorem outcome_appendLine_again (standing : world.files.Standing)
    (valid : Path.isValidName target = true) (unquoted : '"' ∉ target)
    (plain : '"' ∉ text ∧ text.head? ≠ some '>') (content : Text) :
    (builtin.runLine (appendLine target text)).outcome scene
        { world with files := world.files.writeFile target content } =
      (.ok .none,
        { world with files := world.files.writeFile target (Text.extended content text) }) := by
  have hwritten :
      { world with files := world.files.writeFile target content }.files.Standing :=
    standing.updateHere _
  have hfile : (world.files.writeFile target content).here.get? target = some (.file content) := by
    rw [standing.here_writeFile, Directory.get?_insert_self]
  rw [outcome_appendLine hwritten valid unquoted plain, hfile]
  simp only [Redirect.content_append, FileSystem.writeFile_writeFile]

/-- After a write, any number of such lines have the effect of one more write. -/
theorem runLines_append (standing : world.files.Standing)
    (valid : Path.isValidName target = true) (unquoted : '"' ∉ target)
    (plain : ∀ t ∈ texts, '"' ∉ t ∧ t.head? ≠ some '>') (content : Text) :
    builtin.runLines scene { world with files := world.files.writeFile target content }
        (texts.map (appendLine target)) =
      { world with files := world.files.writeFile target (texts.foldl Text.extended content) } := by
  induction texts generalizing content with
  | nil => rfl
  | cons t texts ih =>
    obtain ⟨ht, htexts⟩ := List.forall_mem_cons.1 plain
    rw [List.map_cons, runLines, List.foldl_cons, List.foldl_cons,
      outcome_appendLine_again standing valid unquoted ht]
    exact ih htexts _

/-- Under a name that no child has, the first line makes the file. -/
theorem runLines_append_fresh (standing : world.files.Standing)
    (valid : Path.isValidName target = true) (unquoted : '"' ∉ target)
    (fresh : world.files.here.get? target = none) (nonempty : texts ≠ [])
    (plain : ∀ t ∈ texts, '"' ∉ t ∧ t.head? ≠ some '>') :
    builtin.runLines scene world (texts.map (appendLine target)) =
      { world with files := world.files.writeFile target (Text.inLines texts) } := by
  obtain ⟨t, texts, rfl⟩ := List.exists_cons_of_ne_nil nonempty
  obtain ⟨ht, htexts⟩ := List.forall_mem_cons.1 plain
  have hfirst : ((builtin.runLine (appendLine target t)).outcome scene world).2 =
      { world with files := world.files.writeFile target t } := by
    simp only [outcome_appendLine standing valid unquoted ht, fresh]
    rfl
  have hcontent : Text.inLines (t :: texts) = texts.foldl Text.extended t := by
    rw [← Text.foldl_extended, List.foldl_cons, Text.extended_nil]
  rw [List.map_cons, runLines, List.foldl_cons, hfirst, hcontent]
  exact runLines_append standing valid unquoted htexts t

/-- In every reachable file system, for every valid name without a quote that no child has, and
for one or more texts without quotes of which none begins with `>`: the lines that append these
texts to the file of that name, run in order, leave what a single write of them leaves.  The
file is read as the texts from the first that is not empty on, with line breaks between them.
It is the last child of the current directory, and nothing else is seen to change. -/
theorem texts_collected (reachable : world.files.Reachable)
    (valid : Path.isValidName target = true) (unquoted : '"' ∉ target)
    (fresh : world.files.here.get? target = none) (nonempty : texts ≠ [])
    (plain : ∀ t ∈ texts, '"' ∉ t ∧ t.head? ≠ some '>') (scene : Scene) :
    let after := builtin.runLines scene world (texts.map (appendLine target))
    after.files.read target = .ok (Text.inLines texts) ∧
      after = { world with files := world.files.writeFile target (Text.inLines texts) } ∧
      after.files.here.toList =
        world.files.here.toList ++ [(target, .file (Text.inLines texts))] ∧
      FileSystem.SameOutside (Path.child world.files.cwd target) world.files after.files := by
  intro after
  have standing : world.files.Standing := reachable.standing
  have hafter : after =
      { world with files := world.files.writeFile target (Text.inLines texts) } :=
    runLines_append_fresh standing valid unquoted fresh nonempty plain
  have hhere := standing.here_writeFile target (Text.inLines texts)
  have hread : (world.files.writeFile target (Text.inLines texts)).read target =
      .ok (Text.inLines texts) := by
    have hwritten : (world.files.writeFile target (Text.inLines texts)).Standing :=
      standing.updateHere _
    rw [FileSystem.read_eq_ok, hwritten.find?_valid valid, hhere, Directory.get?_insert_self]
  rw [hafter]
  refine ⟨hread, rfl, ?_, ?_⟩
  · rw [hhere, Directory.toList_insert_of_free fresh]
  · exact standing.sameOutside_updateHere fun c _ hother => c.get?_insert_of_ne hother _

/-- Two empty texts come first and leave no trace.  A third one is an empty line. -/
theorem texts_collected_with_gaps :
    ∃ opened, FileSystem.start Reference.drives {} = .ok opened ∧
      let world : World := { files := opened }
      let texts : List Text := ["", "", "a  b>", "", "c"]
      let after := builtin.runLines epoch world (texts.map (appendLine "> log"))
      Path.isValidName "> log" = true ∧ '"' ∉ "> log".toList ∧
        world.files.here.get? "> log" = none ∧ texts ≠ [] ∧
        (∀ t ∈ texts, '"' ∉ t ∧ t.head? ≠ some '>') ∧
        after.files.read "> log" = .ok "a  b>\n\nc" ∧
        after = { world with files := world.files.writeFile "> log" "a  b>\n\nc" } ∧
        after.files.here.toList =
          world.files.here.toList ++ [("> log".toList, .file "a  b>\n\nc")] ∧
        FileSystem.SameOutside (Path.child world.files.cwd "> log") world.files after.files := by
  have hstart : FileSystem.start Reference.drives {} = .ok _ := rfl
  refine ⟨_, hstart, ?_⟩
  intro world texts after
  have hvalid : Path.isValidName "> log" = true := by decide
  have hunquoted : '"' ∉ "> log".toList := by decide
  have hfresh : world.files.here.get? "> log" = none := rfl
  have hplain : ∀ t ∈ texts, '"' ∉ t ∧ t.head? ≠ some '>' := by decide
  have hnonempty : texts ≠ [] := List.cons_ne_nil _ _
  exact ⟨hvalid, hunquoted, hfresh, hnonempty, hplain,
    texts_collected (.opened hstart) hvalid hunquoted hfresh hnonempty hplain epoch⟩

end Registry

end DriveShell
