import DriveShell.Proofs.CanonicalPath
import DriveShell.Proofs.Matching
import DriveShell.Proofs.Trimming
import DriveShell.Tree.Directory

/-!
# Names spoken in phrases

A phrase can end with a name, as in `create folder X`.  The rules look for their patterns
anywhere in the input, and the first rule that fits is taken.  So a name could be mistaken
for a part of another phrase.  It is not if it is `Speakable`, that is, a valid name without
blanks and quotes.  Every rule before the intended one opens with some words and a gap, and
these do not occur before the name; inside the name there is no room for the gap
(`reads_spoken`).

The name is then the whole of what the rule captures, and nothing of it is lost when the
argument is cleaned.  So the words of the command line are the verb, what the rule adds, and
the name (`command_spoken`).
-/

namespace DriveShell

/-- Cleaning takes nothing from an argument without quotes and without blanks at its ends. -/
theorem Rule.clean_eq_self {t : Text} (unquoted : ∀ c ∈ t, c ≠ '\x27' ∧ c ≠ '"')
    (first : ∀ c ∈ t.head?, Text.isBlank c = false)
    (last : ∀ c ∈ t.getLast?, Text.isBlank c = false) : clean t = t := by
  rw [clean, Text.trim_eq_self first last, List.filter_eq_self]
  exact fun c hc => by simp [unquoted c hc]

/-- A name that a phrase can end with. -/
structure Name.Speakable (name : Name) : Prop where
  /-- It is a valid name of a child. -/
  valid : Path.isValidName name = true
  /-- It holds no blank. -/
  solid : ∀ c ∈ name, Text.isBlank c = false
  /-- It holds no quote. -/
  unquoted : '\x27' ∉ name ∧ '"' ∉ name
  /-- It is no operator. -/
  plain : name.head? ≠ some '>'

namespace Name.Speakable

variable {name : Name}

theorem nonempty (h : name.Speakable) : name ≠ [] :=
  (Path.isProper_iff.1 (Bool.and_eq_true_iff.1 h.valid).1).1

theorem free (h : name.Speakable) : Path.hasReserved name = false := by
  simpa using (Bool.and_eq_true_iff.1 h.valid).2

theorem solid_head? (h : name.Speakable) : ∀ c ∈ name.head?, Text.isBlank c = false :=
  fun c hc => h.solid c (List.mem_of_mem_head? hc)

/-- It stands on one line. -/
theorem line (h : name.Speakable) : ∀ c ∈ name, c ≠ '\n' := by
  rintro c hc rfl
  exact absurd (h.solid _ hc) (by decide)

theorem notSwitch (h : name.Speakable) : name.head? ≠ some '/' := by
  intro hhead
  have hfree := h.free
  simp [Path.hasReserved, List.mem_of_mem_head? hhead] at hfree

theorem clean_eq_self (h : name.Speakable) : Rule.clean name = name := by
  refine Rule.clean_eq_self (fun c hc => ⟨?_, ?_⟩) h.solid_head? fun c hc =>
    h.solid c (List.mem_of_getLast? hc)
  · exact fun heq => h.unquoted.1 (heq ▸ hc)
  · exact fun heq => h.unquoted.2 (heq ▸ hc)

end Name.Speakable

/-! ## Reading a phrase with a name at the end -/

namespace Pattern

variable {name : Name} {first second : Text}

theorem takes_phrase (hfirst : first.all (fun c => isLetter c c) = true)
    (hsecond : second.all (fun c => isLetter c c) = true) (nonempty : second ≠ [])
    (solid : ∀ c ∈ second, Text.isBlank c = false) :
    (phrase first [second]).Takes (first ++ ' ' :: second) := by
  intro after t
  have hgap : gap.run ((inOrder [word second]).run after) (' ' :: (second ++ t)) =
      (inOrder [word second]).run after (second ++ t) :=
    run_gap (Text.solid_head?_append nonempty solid t)
  rw [List.append_assoc]
  exact (takes_word hfirst _ _).trans (hgap.trans (takes_word hsecond _ _))

/-- Behind its opener a name is captured. -/
theorem run_opener_capture {p : Pattern} {u : Text} (h : p.Takes u) (others : List Pattern)
    (hname : name.Speakable) :
    (inOrder [oneOf p others, .gap, .capture]).run (fun _ => some []) (u ++ ' ' :: name) =
      some [⟨name, []⟩] :=
  run_opener h others hname.solid_head? (run_capture hname.nonempty hname.line rfl)

/-- Behind `create` and what is to be created a name is captured. -/
theorem search?_create {p : Pattern} {u : Text} (h : p.Takes u) (others : List Pattern)
    (nonempty : u ≠ []) (solid : u.all (!Text.isBlank ·) = true) (hname : name.Speakable) :
    (inOrder [anyWord "create" ["make", "new"], .gap, oneOf p others, .gap, .capture]).search?
      ("create".toList ++ ' ' :: (u ++ [' ']) ++ name) = some [⟨name, []⟩] := by
  have hcreate : (word "create").Takes "create".toList := takes_word (by decide)
  simp only [List.append_assoc, List.cons_append, List.nil_append]
  exact search?_of_run (run_opener hcreate _
    (Text.solid_head?_append nonempty (Text.solid_of_all solid) _)
    (run_opener_capture h others hname))

end Pattern

/-- A rule with some fixed arguments and then the captured one puts the name behind them. -/
theorem Rule.command_spoken {name : Name} (h : name.Speakable) (home : Text) {rule : Rule}
    {fixed : List Text} (arguments : rule.arguments = fixed.map .literal ++ [.captured 0])
    (clean : ∀ t ∈ fixed, Rule.clean t = t ∧ t ≠ []) :
    rule.command home [⟨name, []⟩] = Text.join [' '] (rule.verb :: (fixed ++ [name])) := by
  have hcaptured : raw home [⟨name, []⟩] (.captured 0) = name := List.take_length
  have hfixed : (fixed.map fun t => Rule.clean (raw home [⟨name, []⟩] (.literal t))) = fixed :=
    (List.map_congr_left fun t ht => (clean t ht).1).trans (List.map_id' fixed)
  have hkept : ∀ t ∈ fixed ++ [name], t ≠ [] :=
    List.forall_mem_append.2 ⟨fun t ht => (clean t ht).2, List.forall_mem_singleton.2 h.nonempty⟩
  have hwords : (rule.arguments.map fun part => Rule.clean (raw home [⟨name, []⟩] part)) =
      fixed ++ [name] := by
    rw [arguments, List.map_append, List.map_map, List.map_singleton, hcaptured, h.clean_eq_self]
    exact congrArg (· ++ [name]) hfixed
  rw [command, hwords]
  simp only [List.filter_eq_self.2 fun t ht => decide_eq_true (hkept t ht)]

namespace Interpretation

variable {name : Name}

/-- An input that is not blank stands for some words on a line, as sure as so many tenths. -/
structure Reads (home input : Text) (words : List Text) (tenths : Nat) : Prop where
  nonblank : Text.trim input ≠ []
  command : (ofInput home input).command = Text.join [' '] words
  confidence : (ofInput home input).confidence = Format.single.ofDecimal false tenths (-1)

/-- A phrase that does not begin with a verb is read by the first rule that fits. -/
theorem reads_phrase (home : Text) {input : Text} (trimmed : Text.trim input = input)
    (nonempty : input ≠ []) (unknown : Vocabulary.opensWithVerb input = false) {rule : Rule}
    {captures : Captures} (first : Rule.first? input = some (rule, captures)) {words : List Text}
    (hwords : rule.command home captures = Text.join [' '] words) :
    Reads home input words rule.tenths := by
  have hroute : Route.of input = .phrase rule captures := by
    rw [Route.of, unknown, first]
    rfl
  have hread : ofInput home input = ofRoute home input (.phrase rule captures) := by
    rw [ofInput, trimmed, hroute]
  refine ⟨by rwa [trimmed], ?_, ?_⟩
  · rw [hread, ← hwords]
    rfl
  · rw [hread]
    rfl

/-- A name at the end is captured, if the phrase does not begin with a verb and no earlier rule
opens before the name. -/
theorem reads_spoken (h : name.Speakable) (home : Text) {lead word more : Text}
    (hlead : lead = word ++ ' ' :: more) (nonempty : word ≠ [])
    (test : word.all (!Text.isBlank ·) = true) (unknown : Vocabulary.isKnownVerb word = false)
    {n : Nat} {rule : Rule} (hrule : Rule.all[n]? = some rule)
    (absent : ∀ other ∈ Rule.all.take n,
      other.pattern.opening?.any (fun opening => opening.search? lead = none) = true)
    (found : rule.pattern.search? (lead ++ name) = some [⟨name, []⟩])
    (fixed : List Text) (arguments : rule.arguments = fixed.map .literal ++ [.captured 0])
    (clean : ∀ t ∈ fixed, Rule.clean t = t ∧ t ≠ []) :
    Reads home (lead ++ name) (rule.verb :: (fixed ++ [name])) rule.tenths := by
  have hfirst : Rule.first? (lead ++ name) = some (rule, [⟨name, []⟩]) :=
    Rule.first?_append_solid hrule absent h.solid found
  have solid : ∀ c ∈ word, Text.isBlank c = false := Text.solid_of_all test
  subst hlead
  have htrim : Text.trim (word ++ ' ' :: more ++ name) = word ++ ' ' :: more ++ name := by
    refine Text.trim_eq_self (fun c hc => ?_) (fun c hc => ?_)
    · rw [List.append_assoc] at hc
      exact Text.solid_head?_append nonempty solid _ c hc
    · rw [List.getLast?_append_of_ne_nil _ h.nonempty] at hc
      exact h.solid c (List.mem_of_getLast? hc)
  have hparted : Words.Parted (' ' :: more ++ name) := by
    intro c hc
    cases hc
    decide
  have hverb : Vocabulary.opensWithVerb (word ++ ' ' :: more ++ name) = false := by
    rw [Vocabulary.opensWithVerb, List.append_assoc, Text.firstWord?_append nonempty solid hparted,
      Option.any_some, unknown]
  exact reads_phrase home htrim (List.append_ne_nil_of_right_ne_nil _ h.nonempty) hverb hfirst
    (Rule.command_spoken h home arguments clean)

open Pattern in
theorem reads_create_folder (h : name.Speakable) (home : Text) :
    Reads home ("create folder " ++ name) ["mkdir", name] 9 := by
  have hlead : ("create folder " : Text) =
      "create".toList ++ ' ' :: ("folder".toList ++ [' ']) := by
    decide
  have htakes : (word "folder").Takes "folder".toList := takes_word (by decide)
  have hfound := search?_create htakes [word "directory"] (by decide) (by decide) h
  rw [← hlead] at hfound
  exact reads_spoken (n := 2) h home hlead (by decide) (by decide) (by decide) rfl (by decide)
    hfound [] rfl (List.forall_mem_nil _)

open Pattern in
theorem reads_create_file (h : name.Speakable) (home : Text) :
    Reads home ("create file " ++ name) ["echo", ">", name] 7 := by
  have hlead : ("create file " : Text) = "create".toList ++ ' ' :: ("file".toList ++ [' ']) := by
    decide
  have htakes : (word "file").Takes "file".toList := takes_word (by decide)
  have hfound := search?_create htakes [] (by decide) (by decide) h
  rw [← hlead] at hfound
  exact reads_spoken (n := 6) h home hlead (by decide) (by decide) (by decide) rfl (by decide)
    hfound [">"] rfl (by decide)

open Pattern in
theorem reads_go_to (h : name.Speakable) (home : Text) :
    Reads home ("go to " ++ name) ["cd", name] 9 := by
  have hlead : ("go to " : Text) = "go".toList ++ ' ' :: ("to".toList ++ [' ']) := by decide
  have htakes : (phrase "go" ["to"]).Takes ("go".toList ++ ' ' :: "to".toList) :=
    takes_phrase (by decide) (by decide) (by decide) (Text.solid_of_all (by decide))
  have hrun := run_opener_capture htakes
    [phrase "change" ["to"], phrase "navigate" ["to"], phrase "cd" ["to"]] h
  have htext : "go to " ++ name = "go".toList ++ ' ' :: "to".toList ++ ' ' :: name := by
    rw [hlead]
    simp only [List.append_assoc, List.cons_append, List.nil_append]
  have hfound := search?_of_run hrun
  rw [← htext] at hfound
  exact reads_spoken (n := 1) h home hlead (by decide) (by decide) (by decide) rfl (by decide)
    hfound [] rfl (List.forall_mem_nil _)

open Pattern in
theorem reads_go_back (home : Text) : Reads home "go back" ["cd", ".."] 8 := by
  have hfirst : Rule.first? "go back" = some (
      { pattern := inOrder [anyWord "go" ["move", "switch"], .gap, anyWord "back" ["up", "parent"]]
        verb := "cd", tenths := 8, arguments := [.literal ".."] }, []) := by
    decide +kernel
  exact reads_phrase home (by decide) (by decide) (by decide) hfirst rfl

end Interpretation

end DriveShell
