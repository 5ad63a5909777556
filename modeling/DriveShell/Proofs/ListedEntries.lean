import Mathlib.Algebra.GroupWithZero.Nat
import Mathlib.Data.String.Basic
import DriveShell.Proofs.GroupedFigures
import DriveShell.Tree.Listing

/-!
# Listings read back

A listing is one text, and its names may look like any part of it.  They may begin with digits or
blanks, or be the tag of a directory.  `Listing.readEntries` finds its way all the same.  The lines
above the entries depend on the path and the serial number alone, so their length is known.  Then
comes a row for each entry, which is never empty, and the empty line above the summary ends them.
In a row the first character tells a directory, since the row of a file begins with a blank or a
digit.  The size of a file ends at the first blank after its digits, however wide it is, and what
is behind that blank is the name (`readRow_row`).  A line break in a name is all that could go
wrong.

The two lines of the summary hold two figures each, and nothing else in them is a digit or a comma
(`figures_line`).  They are the last two lines whatever the names are, and they show how many files
and directories there are and how many bytes the files hold (`exists_summary`).
-/

namespace DriveShell

namespace Text

variable {before shown after : Text} {c : Char}

/-- The bytes of a text are those of its encoding in UTF-8. -/
theorem byteSize_eq (t : Text) : t.byteSize = (String.ofList t).utf8ByteSize := by
  rw [String.utf8ByteSize_ofList]
  induction t with
  | nil => rfl
  | cons c t ih => rw [byteSize_cons, ih, String.utf8Len_cons, Nat.add_comm]

/-! ## Where a reader stops -/

section Span

variable {α : Type} {p : α → Bool} {before after : List α} {stop : α}

theorem takeWhile_append_cons (hbefore : ∀ a ∈ before, p a = true) (hstop : p stop = false) :
    (before ++ stop :: after).takeWhile p = before := by
  rw [List.takeWhile_append_of_pos hbefore, List.takeWhile_cons_of_neg (by simp [hstop]),
    List.append_nil]

theorem dropWhile_append_cons (hbefore : ∀ a ∈ before, p a = true) (hstop : p stop = false) :
    (before ++ stop :: after).dropWhile p = stop :: after := by
  rw [List.dropWhile_append_of_pos hbefore, List.dropWhile_cons_of_neg (by simp [hstop])]

end Span

/-! ## Figures in a line -/

/-- Whether a character can stand in a figure. -/
def isFigure (c : Char) : Bool := c.isDigit || c = ','

/-- The first figure in a text, and the text after it. -/
def nextFigure (t : Text) : Nat × Text :=
  let rest := t.dropWhile (!isFigure ·)
  (figure (rest.takeWhile isFigure), rest.dropWhile isFigure)

/-- The first two figures in a text. -/
def figures (t : Text) : Nat × Nat := ((nextFigure t).1, (nextFigure (nextFigure t).2).1)

theorem isFigure_of_isDigit (h : c.isDigit = true) : isFigure c = true := by
  rw [isFigure, h]
  rfl

theorem isFigure_of_mem_ofNat {n : Nat} (h : c ∈ ofNat n) : isFigure c = true :=
  isFigure_of_isDigit (isDigit_of_mem_ofNat h)

theorem isFigure_of_mem_grouped {n : Nat} (h : c ∈ grouped n) : isFigure c = true := by
  by_cases hc : c = ','
  · subst hc
    rfl
  · have hmem : c ∈ ungrouped (grouped n) := List.mem_filter.2 ⟨h, decide_eq_true hc⟩
    rw [ungrouped_grouped] at hmem
    exact isFigure_of_mem_ofNat hmem

theorem grouped_ne_nil (n : Nat) : grouped n ≠ [] := by
  intro h
  have hdigits := ungrouped_grouped n
  rw [h] at hdigits
  exact ofNat_ne_nil n hdigits.symm

/-- A figure begins with its first character and ends before the next that stands in no figure. -/
theorem nextFigure_append (hbefore : before.any isFigure = false)
    (hshown : ∀ c ∈ shown, isFigure c = true) (nonempty : shown ≠ []) (hc : isFigure c = false) :
    nextFigure (before ++ (shown ++ c :: after)) = (figure shown, c :: after) := by
  obtain ⟨d, rest, rfl⟩ := List.exists_cons_of_ne_nil nonempty
  have hd : isFigure d = true := hshown d List.mem_cons_self
  have hskip : (before ++ (d :: rest ++ c :: after)).dropWhile (!isFigure ·) =
      d :: rest ++ c :: after :=
    dropWhile_append_cons (by simpa using hbefore) (by rw [hd]; rfl)
  rw [nextFigure, hskip, takeWhile_append_cons hshown hc, dropWhile_append_cons hshown hc]

/-- A count and a grouped figure are read in a line that has no others. -/
theorem figures_line {between : Text} (hbefore : before.any isFigure = false)
    (hbetween : between.any isFigure = false) (hafter : after.any isFigure = false)
    (apart : between ≠ []) (ended : after ≠ []) (m n : Nat) :
    figures (before ++ ofNat m ++ between ++ grouped n ++ after) = (m, n) := by
  obtain ⟨c, between, rfl⟩ := List.exists_cons_of_ne_nil apart
  obtain ⟨d, after, rfl⟩ := List.exists_cons_of_ne_nil ended
  have hc : isFigure c = false := (Bool.or_eq_false_iff.1 hbetween).1
  have hd : isFigure d = false := (Bool.or_eq_false_iff.1 hafter).1
  have hline : before ++ ofNat m ++ c :: between ++ grouped n ++ d :: after =
      before ++ (ofNat m ++ c :: (between ++ (grouped n ++ d :: after))) := by
    simp only [List.append_assoc, List.cons_append]
  have hsecond : nextFigure (c :: (between ++ (grouped n ++ d :: after))) = (n, d :: after) := by
    rw [← List.cons_append, nextFigure_append hbetween (fun _ => isFigure_of_mem_grouped)
      (grouped_ne_nil n) hd, figure_grouped]
  rw [figures, hline, nextFigure_append hbefore (fun _ => isFigure_of_mem_ofNat)
    (ofNat_ne_nil m) hc, hsecond, figure_ofNat]

/-- Figures break no line. -/
theorem newline_notMem_line {between : Text} (hbefore : '\n' ∉ before) (hbetween : '\n' ∉ between)
    (hafter : '\n' ∉ after) (m n : Nat) :
    '\n' ∉ before ++ ofNat m ++ between ++ grouped n ++ after := by
  have hm : '\n' ∉ ofNat m := fun h => nomatch isFigure_of_mem_ofNat h
  have hn : '\n' ∉ grouped n := fun h => nomatch isFigure_of_mem_grouped h
  simp [hbefore, hm, hbetween, hn, hafter]

end Text

/-! ## What there is to list -/

/-- The content of a file, and none for a directory. -/
def Node.content? : Node → Option Text
  | .file content => some content
  | .directory _ => none

namespace Directory

/-- What a listing shows of the entries: the names in order, each with its kind and its bytes. -/
def shown (d : Directory) : List (Name × EntryKind × Nat) :=
  d.toList.map fun (name, node) => (name, node.kind, node.size)

/-- The contents of the files in a directory. -/
def contents (d : Directory) : List Text := d.toList.filterMap fun (_, node) => node.content?

@[simp] theorem contents_file (name : Name) (content : Text) (rest : Directory) :
    (entry name (.file content) rest).contents = content :: rest.contents := rfl

@[simp] theorem contents_directory (name : Name) (children rest : Directory) :
    (entry name (.directory children) rest).contents = rest.contents := rfl

end Directory

namespace Listing

variable {d d' : Directory}

/-- The entries of a listing are what is shown of the directory, and nothing else of it. -/
theorem entries_eq_iff (path serial : Text) (free : Nat) :
    (ofDirectory path d serial free).entries = (ofDirectory path d' serial free).entries ↔
      d.shown = d'.shown := by
  have hshown : ∀ c : Directory, (ofDirectory path c serial free).entries.map
      (fun entry => (entry.name, entry.kind, entry.size)) = c.shown := fun c => by
    rw [ofDirectory, List.map_map]
    rfl
  have hinjective : Function.Injective fun entry : ListingEntry =>
      (entry.name, entry.kind, entry.size) := by
    rintro ⟨name, kind, size⟩ ⟨name', kind', size'⟩ h
    simpa using h
  rw [← hshown d, ← hshown d', (List.map_injective_iff.2 hinjective).eq_iff]

/-! ## Rows -/

/-- The entry that a row shows where files have no stamp. -/
def readRow (line : Text) : ListingEntry :=
  let shown := line.dropWhile (· = ' ')
  if shown.head? = some '<' then ⟨shown.drop directoryTag.length, .directory, 0⟩
  else ⟨(shown.dropWhile Char.isDigit).drop 1, .file, Text.figure (shown.takeWhile Char.isDigit)⟩

theorem row_file (stamp : Option Text) (name : Name) (size : Nat) :
    row stamp ⟨name, .file, size⟩ = stamp.getD [] ++
      (List.replicate (14 - (Text.ofNat size).length) ' ' ++ (Text.ofNat size ++ ' ' :: name)) := by
  simp only [row, List.leftpad, List.append_assoc]

/-- Neither blanks nor digits in a name are taken for those in front of it. -/
theorem readRow_file (name : Name) (size : Nat) :
    readRow (row none ⟨name, .file, size⟩) = ⟨name, .file, size⟩ := by
  have hdigits : ∀ c ∈ Text.ofNat size, c.isDigit = true := fun _ => Text.isDigit_of_mem_ofNat
  obtain ⟨digit, digits, hsize⟩ := List.exists_cons_of_ne_nil (Text.ofNat_ne_nil size)
  have hdigit : digit.isDigit = true := hdigits digit (by simp [hsize])
  have hskip : (row none ⟨name, .file, size⟩).dropWhile (· = ' ') =
      Text.ofNat size ++ ' ' :: name := by
    have hblank : digit ≠ ' ' := by
      rintro rfl
      cases hdigit
    rw [row_file, Option.getD_none, List.nil_append, hsize]
    exact Text.dropWhile_append_cons (by simp) (decide_eq_false hblank)
  have hhead : (Text.ofNat size ++ ' ' :: name).head? ≠ some '<' := by
    rw [hsize, List.cons_append, List.head?_cons, ne_eq, Option.some.injEq]
    rintro rfl
    cases hdigit
  rw [readRow, hskip, if_neg hhead, Text.takeWhile_append_cons hdigits rfl,
    Text.dropWhile_append_cons hdigits rfl, Text.figure_ofNat]
  rfl

/-- The row of a node is read back. -/
theorem readRow_row (name : Name) (node : Node) :
    readRow (row none (.ofNode name node)) = .ofNode name node := by
  cases node with
  | file content => exact readRow_file name content.byteSize
  | directory children => rfl

theorem row_ne_nil (stamp : Option Text) (entry : ListingEntry) : row stamp entry ≠ [] := by
  obtain ⟨name, kind, size⟩ := entry
  cases kind with
  | file => simp [row_file]
  | directory => exact List.cons_ne_nil _ _

theorem newline_notMem_row {entry : ListingEntry} (plain : '\n' ∉ entry.name) :
    '\n' ∉ row none entry := by
  obtain ⟨name, kind, size⟩ := entry
  cases kind with
  | file =>
    have hsize : '\n' ∉ Text.ofNat size := fun h => nomatch Text.isDigit_of_mem_ofNat h
    simpa [row_file, hsize] using plain
  | directory =>
    have htag : '\n' ∉ directoryTag := by decide
    simpa [row, htag] using plain

/-! ## The summary -/

/-- The lines below the entries, and the figures in the last two of them. -/
theorem exists_summary (listing : Listing) :
    ∃ files directories, listing.summary = [[], files, directories] ∧
      ('\n' ∉ files ∧ Text.figures files = (listing.fileCount, listing.totalBytes)) ∧
      ('\n' ∉ directories ∧
        Text.figures directories = (listing.directoryCount, listing.freeBytes)) := by
  refine ⟨_, _, rfl, ⟨?_, ?_⟩, ?_, ?_⟩
  · exact Text.newline_notMem_line (by decide) (by decide) (by decide) _ _
  · exact Text.figures_line (by decide) (by decide) (by decide) (by decide) (by decide) _ _
  · exact Text.newline_notMem_line (by decide) (by decide) (by decide) _ _
  · exact Text.figures_line (by decide) (by decide) (by decide) (by decide) (by decide) _ _

/-- The last two lines of the text are those with the figures. -/
theorem split_text (listing : Listing) :
    ∃ above files directories, Text.split '\n' listing.text = above ++ [files, directories] ∧
      Text.figures files = (listing.fileCount, listing.totalBytes) ∧
      Text.figures directories = (listing.directoryCount, listing.freeBytes) := by
  obtain ⟨files, directories, hsummary, ⟨hfiles, hread⟩, hdirectories, hread'⟩ :=
    listing.exists_summary
  obtain ⟨above, habove, hlines⟩ :
      ∃ above, above ≠ [] ∧ listing.lines = above ++ [files, directories] := by
    refine ⟨listing.header ++ listing.entries.map (row listing.stamp) ++ [[]], by simp, ?_⟩
    rw [lines, hsummary]
    simp
  have hplain : ∀ line ∈ [files, directories], '\n' ∉ line := by simp [hfiles, hdirectories]
  refine ⟨Text.split '\n' (Text.join ['\n'] above), files, directories, ?_, hread, hread'⟩
  rw [text, hlines, Text.join_append _ habove (List.cons_ne_nil _ _), List.append_assoc,
    List.singleton_append, Text.split_append, Text.split_join (List.cons_ne_nil _ _) hplain]

/-! ## Entries -/

/-- The entries that a text shows below some lines, where files have no stamp. -/
def readEntries (heading : Text) (text : Text) : List ListingEntry :=
  ((Text.split '\n' (text.drop (heading.length + 1))).takeWhile (· ≠ [])).map readRow

/-- Below the header there is a line for each entry and then the summary. -/
theorem split_below_header {listing : Listing} (unstamped : listing.stamp = none)
    (plain : ∀ entry ∈ listing.entries, '\n' ∉ entry.name) :
    ∃ figures, Text.split '\n'
        (listing.text.drop ((Text.join ['\n'] listing.header).length + 1)) =
      listing.entries.map (row none) ++ [] :: figures := by
  obtain ⟨files, directories, hsummary, ⟨hfiles, -⟩, hdirectories, -⟩ := listing.exists_summary
  have hplain : ∀ line ∈ listing.entries.map (row none) ++ [[], files, directories],
      '\n' ∉ line := by
    refine List.forall_mem_append.2 ⟨List.forall_mem_map.2 fun entry hentry => ?_, ?_⟩
    · exact newline_notMem_row (plain entry hentry)
    · simp [hfiles, hdirectories]
  have hheader : listing.header ≠ [] := List.cons_ne_nil _ _
  have htext : listing.text = Text.join ['\n'] listing.header ++
      '\n' :: Text.join ['\n'] (listing.entries.map (row none) ++ [[], files, directories]) := by
    rw [text, lines, hsummary, unstamped, List.append_assoc, Text.join_append _ hheader (by simp),
      List.append_assoc, List.singleton_append]
  refine ⟨[files, directories], ?_⟩
  rw [htext, List.drop_length_add_append, List.drop_succ_cons, List.drop_zero,
    Text.split_join (by simp) hplain]

/-- The entries of a directory are read back below the header. -/
theorem readEntries_text (path serial : Text) (free : Nat) (plain : ∀ name ∈ d.names, '\n' ∉ name) :
    readEntries (Text.join ['\n'] (ofDirectory path d serial free).header)
        (ofDirectory path d serial free).text =
      (ofDirectory path d serial free).entries := by
  have hplain : ∀ entry ∈ (ofDirectory path d serial free).entries, '\n' ∉ entry.name :=
    List.forall_mem_map.2 fun child hchild => plain child.1 (List.mem_map_of_mem hchild)
  have hread : ∀ entry ∈ (ofDirectory path d serial free).entries,
      readRow (row none entry) = entry :=
    List.forall_mem_map.2 fun child _ => readRow_row child.1 child.2
  have hrows : ∀ line ∈ (ofDirectory path d serial free).entries.map (row none),
      decide (line ≠ []) = true :=
    List.forall_mem_map.2 fun entry _ => decide_eq_true (row_ne_nil none entry)
  obtain ⟨figures, hsplit⟩ := split_below_header rfl hplain
  rw [readEntries, hsplit, Text.takeWhile_append_cons hrows rfl, List.map_map]
  exact (List.map_congr_left hread).trans (List.map_id _)

/-! ## Counts -/

theorem fileCount_ofDirectory (path serial : Text) (free : Nat) (d : Directory) :
    (ofDirectory path d serial free).fileCount = d.contents.length := by
  rw [fileCount, ofDirectory, List.countP_map]
  induction d with
  | empty => rfl
  | entry name node rest ih =>
    rw [Directory.toList_entry, List.countP_cons, ih]
    cases node with
    | file content => rfl
    | directory children => rfl

/-- An entry is counted as a file or as a directory, and two directories more are counted. -/
theorem fileCount_add_directoryCount (listing : Listing) :
    listing.fileCount + listing.directoryCount = listing.entries.length + 2 := by
  have hkinds : listing.entries.countP (·.kind = .directory) =
      listing.entries.countP fun entry => ¬decide (entry.kind = .file) = true := by
    refine List.countP_congr fun entry _ => ?_
    cases entry.kind with
    | file => decide
    | directory => decide
  rw [List.length_eq_countP_add_countP (·.kind = .file), ← hkinds, fileCount, directoryCount,
    Nat.add_assoc]

theorem totalBytes_ofDirectory (path serial : Text) (free : Nat) (d : Directory) :
    (ofDirectory path d serial free).totalBytes =
      (d.contents.map fun content => (String.ofList content).utf8ByteSize).sum := by
  rw [totalBytes, ofDirectory, List.map_map]
  induction d with
  | empty => rfl
  | entry name node rest ih =>
    rw [Directory.toList_entry, List.map_cons, List.foldr_cons, ih]
    cases node with
    | file content =>
      rw [Directory.contents_file, List.map_cons, List.sum_cons, ← Text.byteSize_eq]
      rfl
    | directory children =>
      rw [Directory.contents_directory]
      exact Nat.zero_add _

/-! ## What a listing shows -/

/-- What is shown of a directory can be read off its listing, and the listing shows nothing else. -/
theorem text_ofDirectory_eq_iff (path serial : Text) (free : Nat)
    (plain : ∀ name ∈ d.names, '\n' ∉ name) (plain' : ∀ name ∈ d'.names, '\n' ∉ name) :
    (ofDirectory path d serial free).text = (ofDirectory path d' serial free).text ↔
      d.shown = d'.shown := by
  rw [← entries_eq_iff path serial free]
  constructor
  · intro h
    have hheader : (ofDirectory path d serial free).header =
        (ofDirectory path d' serial free).header := rfl
    rw [← readEntries_text path serial free plain, hheader, h,
      readEntries_text path serial free plain']
  · intro h
    exact congrArg (fun entries => text ⟨path, entries, serial, free, none⟩) h

/-- Under one path, serial number and free figure, directories whose names hold no line break have
one listing exactly if their entries have the same names, kinds and bytes in the same order.  In the
listing of any directory, stamped or not, all children and two directories more are counted, the
bytes are those of the contents of its files in UTF-8, and the last two lines show these figures. -/
theorem listing_determines_entries :
    (∀ path serial free (d d' : Directory), (∀ name ∈ d.names, '\n' ∉ name) →
      (∀ name ∈ d'.names, '\n' ∉ name) →
      ((ofDirectory path d serial free).text = (ofDirectory path d' serial free).text ↔
        d.shown = d'.shown)) ∧
    ∀ path serial free (d : Directory) stamp,
      let listing := { ofDirectory path d serial free with stamp := stamp }
      listing.fileCount + listing.directoryCount = d.toList.length + 2 ∧
      listing.fileCount = d.contents.length ∧
      listing.totalBytes =
        (d.contents.map fun content => (String.ofList content).utf8ByteSize).sum ∧
      ∃ above files directories, Text.split '\n' listing.text = above ++ [files, directories] ∧
        Text.figures files = (listing.fileCount, listing.totalBytes) ∧
        Text.figures directories = (listing.directoryCount, listing.freeBytes) := by
  refine ⟨fun path serial free d d' => text_ofDirectory_eq_iff path serial free,
    fun path serial free d stamp => ⟨?_, ?_, ?_, split_text _⟩⟩
  · rw [fileCount_add_directoryCount]
    exact congrArg (· + 2) (List.length_map _)
  · exact fileCount_ofDirectory path serial free d
  · exact totalBytes_ofDirectory path serial free d

/-- Names that look like the rows of other entries, and contents that differ but have as many
bytes. -/
theorem listing_determines_entries_lookalikes :
    let d := Directory.ofList [("<DIR>          a", .file "é"), ("2 b", .directory .empty),
      ("             1 c", .file [])]
    let d' := Directory.ofList [("<DIR>          a", .file "ab"),
      ("2 b", .directory (.ofList [("c", .file [])])), ("             1 c", .file [])]
    (∀ name ∈ d.names, '\n' ∉ name) ∧ (∀ name ∈ d'.names, '\n' ∉ name) ∧
      d.shown = d'.shown ∧
      (ofDirectory "C:\\\n" d "1A2B-3C4D" 0).text =
        (ofDirectory "C:\\\n" d' "1A2B-3C4D" 0).text := by
  intro d d'
  have plain : ∀ name ∈ d.names, '\n' ∉ name := by decide
  have plain' : ∀ name ∈ d'.names, '\n' ∉ name := by decide
  have hshown : d.shown = d'.shown := by decide
  exact ⟨plain, plain', hshown,
    (listing_determines_entries.1 _ _ _ d d' plain plain').2 hshown⟩

end Listing

end DriveShell
