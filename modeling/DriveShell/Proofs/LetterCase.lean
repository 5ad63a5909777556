import DriveShell.Phrase.Interpretation
import DriveShell.Proofs.Matching
import DriveShell.Proofs.Splitting

/-!
# Inputs in other letter case

The case of ASCII letters makes no difference to how an input is read.  Two inputs that differ
in it alone take the same route, by the same rule if it is that of a phrase, and with captures at
the same places.  So they are read with the same confidence, and their command lines differ in the
case of letters alone (`reading_ignores_case`).

Everything that a reading does with a text commutes with making its letters small.  Trimming and
cutting words look at blanks, a capture ends at a line feed, and cleaning drops quotes.  No letter
is any of these, so the tests for them are `CaseBlind`.  The letter of a pattern is given small and
compared in small (`caseBlind_isLetter`).  The ways to match are tried in the same order on both
texts, so a run finds the same stretches on both (`run_lower`), and so does a search for the first
rule that fits (`first?_lower`).

What is captured is copied to the command line as it stands.  That is why the command lines are
not equal.
-/

namespace DriveShell

/-! ## Tests of characters -/

namespace Text

variable {test : Char → Bool}

section Letters

variable {c : Char}

theorem isUpper_iff : c.isUpper = true ↔ 65 ≤ c.toNat ∧ c.toNat ≤ 90 := decide_eq_true_iff

theorem isLower_iff : c.isLower = true ↔ 97 ≤ c.toNat ∧ c.toNat ≤ 122 := by
  change (decide (97 ≤ c.toNat) && decide (c.toNat ≤ 122)) = true ↔ _
  rw [Bool.and_eq_true, decide_eq_true_eq, decide_eq_true_eq]

theorem isAlpha_iff :
    c.isAlpha = true ↔ 65 ≤ c.toNat ∧ c.toNat ≤ 90 ∨ 97 ≤ c.toNat ∧ c.toNat ≤ 122 := by
  change (c.isUpper || c.isLower) = true ↔ _
  rw [Bool.or_eq_true, isUpper_iff, isLower_iff]

theorem toLower_of_notUpper (h : ¬c.isUpper = true) : c.toLower = c :=
  dif_neg fun hrange => h (decide_eq_true hrange)

theorem toNat_toLower (h : c.isUpper = true) : c.toLower.toNat = c.toNat + 32 := by
  have hhigh : c.toNat ≤ 90 := (isUpper_iff.1 h).2
  have hlower : c.toLower.toNat = (c.val + 32).toNat :=
    congrArg Char.toNat (dif_pos (of_decide_eq_true h))
  have hsum : (c.val + 32).toNat = (c.toNat + 32) % 2 ^ 32 := UInt32.toNat_add _ _
  rw [hlower, hsum]
  exact Nat.mod_eq_of_lt (by omega)

theorem isAlpha_toLower (c : Char) : c.toLower.isAlpha = c.isAlpha := by
  by_cases h : c.isUpper = true
  · have hcode := toNat_toLower h
    have hrange := isUpper_iff.1 h
    rw [Bool.eq_iff_iff, isAlpha_iff, isAlpha_iff]
    omega
  · rw [toLower_of_notUpper h]

theorem toLower_toLower (c : Char) : c.toLower.toLower = c.toLower := by
  refine toLower_of_notUpper fun hsmall => ?_
  by_cases h : c.isUpper = true
  · have hcode := toNat_toLower h
    have hrange := isUpper_iff.1 h
    have hrange' := isUpper_iff.1 hsmall
    omega
  · rw [toLower_of_notUpper h] at hsmall
    exact h hsmall

theorem toLower_eq_self (h : c.isAlpha = false) : c.toLower = c :=
  toLower_of_notUpper (Bool.eq_false_iff.1 (Bool.or_eq_false_iff.1 h).1)

end Letters

/-- What is no letter was not made small. -/
theorem eq_of_toLower_eq {c d : Char} (h : c.toLower = d) (notLetter : d.isAlpha = false) :
    c = d := by
  have hc : c.isAlpha = false := by rw [← isAlpha_toLower, h, notLetter]
  rw [← h, toLower_eq_self hc]

/-- A test that gives the same for a letter in both cases. -/
def CaseBlind (test : Char → Bool) : Prop := ∀ c, test c.toLower = test c

/-- A test that no letter passes does not see their case. -/
theorem CaseBlind.of_letters (h : ∀ c, c.isAlpha = true → test c = false) : CaseBlind test := by
  intro c
  cases hc : c.isAlpha with
  | false => rw [toLower_eq_self hc]
  | true =>
    have hsmall : c.toLower.isAlpha = true := (isAlpha_toLower c).trans hc
    rw [h c hc, h c.toLower hsmall]

theorem CaseBlind.comp_toLower (h : CaseBlind test) : test ∘ Char.toLower = test := funext h

theorem CaseBlind.not (h : CaseBlind test) : CaseBlind (!test ·) := fun c => congrArg (!·) (h c)

theorem caseBlind_eq {d : Char} (notLetter : d.isAlpha = false) : CaseBlind (· = d) := by
  refine .of_letters fun c hc => decide_eq_false ?_
  rintro rfl
  rw [notLetter] at hc
  cases hc

theorem caseBlind_ne {d : Char} (notLetter : d.isAlpha = false) : CaseBlind (· ≠ d) := by
  intro c
  change decide (¬c.toLower = d) = decide (¬c = d)
  rw [decide_not, decide_not]
  exact congrArg (!·) (caseBlind_eq notLetter c)

/-- No range of blanks comes near the letters. -/
theorem blankRanges_apart : ∀ range ∈ blankRanges, range.2 < 65 ∨ 122 < range.1 := by decide

theorem caseBlind_isBlank : CaseBlind isBlank := by
  refine .of_letters fun c hc => ?_
  rw [isAlpha_iff] at hc
  rw [isBlank, List.any_eq_false]
  intro range hrange
  have hapart := blankRanges_apart range hrange
  simp only [Bool.and_eq_true, decide_eq_true_eq]
  omega

/-! ## Texts in small letters -/

@[simp] theorem lower_lower (t : Text) : lower (lower t) = lower t := by
  rw [lower, lower, List.map_map]
  exact List.map_congr_left fun c _ => toLower_toLower c

theorem lower_append (s t : Text) : lower (s ++ t) = lower s ++ lower t := List.map_append

@[simp] theorem lower_eq_nil_iff {t : Text} : lower t = [] ↔ t = [] := List.map_eq_nil_iff

section Blind

variable (h : CaseBlind test) (t : Text)
include h

theorem dropWhile_lower : (lower t).dropWhile test = lower (t.dropWhile test) := by
  rw [lower, List.dropWhile_map, h.comp_toLower, lower]

theorem takeWhile_lower : (lower t).takeWhile test = lower (t.takeWhile test) := by
  rw [lower, List.takeWhile_map, h.comp_toLower, lower]

theorem filter_lower : (lower t).filter test = lower (t.filter test) := by
  rw [lower, List.filter_map, h.comp_toLower, lower]

theorem dropEndWhile_lower : dropEndWhile test (lower t) = lower (dropEndWhile test t) := by
  have hreverse : ∀ s : Text, (lower s).reverse = lower s.reverse := fun s =>
    (List.map_reverse).symm
  rw [dropEndWhile, hreverse, dropWhile_lower h, hreverse, dropEndWhile]

end Blind

theorem trim_lower (t : Text) : trim (lower t) = lower (trim t) := by
  rw [trim, dropWhile_lower caseBlind_isBlank, dropEndWhile_lower caseBlind_isBlank, trim]

theorem firstWord?_lower (t : Text) : firstWord? (lower t) = (firstWord? t).map lower := by
  rw [firstWord?, firstWord?, dropWhile_lower caseBlind_isBlank]
  cases t.dropWhile isBlank with
  | nil => rfl
  | cons c rest => exact congrArg some (takeWhile_lower caseBlind_isBlank.not (c :: rest))

theorem lower_join (separator : Text) (texts : List Text) :
    lower (join separator texts) = join (lower separator) (texts.map lower) := by
  induction texts with
  | nil => rfl
  | cons t texts ih =>
    cases texts with
    | nil => simp
    | cons u texts =>
      rw [join_cons_cons, lower_append, lower_append, ih]
      exact (join_cons_cons (lower separator) (lower t) (lower u) (texts.map lower)).symm

theorem filter_nonempty_lower (texts : List Text) :
    (texts.map lower).filter (· ≠ []) = (texts.filter (· ≠ [])).map lower := by
  have hcomp : (fun t : Text => decide (t ≠ [])) ∘ lower = fun t => decide (t ≠ []) := by
    funext t
    simp
  rw [List.filter_map, hcomp]

end Text

/-! ## Verbs -/

open Text (lower CaseBlind)

theorem Vocabulary.isKnownVerb_lower (word : Text) :
    isKnownVerb (lower word) = isKnownVerb word := by
  rw [isKnownVerb, Text.lower_lower, isKnownVerb]

theorem Vocabulary.opensWithVerb_lower (t : Text) : opensWithVerb (lower t) = opensWithVerb t := by
  simp only [opensWithVerb, Text.firstWord?_lower, Option.any_map, isKnownVerb_lower]

/-! ## Captures -/

namespace Stretch

/-- A stretch of the text in small letters, at the same place. -/
def lower (s : Stretch) : Stretch := ⟨Text.lower s.start, Text.lower s.stop⟩

theorem text_lower (s : Stretch) : s.lower.text = Text.lower s.text := by
  rw [text, lower, Text.length_lower, Text.length_lower, Text.lower, ← List.map_take, text,
    Text.lower]

end Stretch

namespace Pattern

theorem caseBlind_isLetter (c : Char) : CaseBlind (isLetter c) := by
  intro d
  have hkelvin : decide (d.toLower = '\u212A') = decide (d = '\u212A') :=
    Text.caseBlind_eq (by decide) d
  have hlong : decide (d.toLower = '\u017F') = decide (d = '\u017F') :=
    Text.caseBlind_eq (by decide) d
  rw [isLetter, isLetter, Text.toLower_toLower, hkelvin, hlong]

theorem longest_lower {α β : Type} {test : Char → Bool} (blind : CaseBlind test) {f : α → β}
    {after : Text → Option α} {afterSmall : Text → Option β}
    (h : ∀ t, afterSmall (lower t) = (after t).map f) (t : Text) :
    longest test afterSmall (lower t) = (longest test after t).map f := by
  induction t with
  | nil => rfl
  | cons c t ih =>
    rw [Text.lower_cons, longest, longest, blind c, ih, h]
    cases test c with
    | false => rfl
    | true =>
      cases longest test after t with
      | none => rfl
      | some found => rfl

theorem afterLetter_lower (c : Char) {after afterSmall : Text → Option Captures}
    (h : ∀ t, afterSmall (lower t) = (after t).map (List.map Stretch.lower)) (t : Text) :
    afterLetter c afterSmall (lower t) = (afterLetter c after t).map (List.map Stretch.lower) := by
  cases t with
  | nil => rfl
  | cons d t =>
    rw [Text.lower_cons, afterLetter, afterLetter, caseBlind_isLetter c d, h]
    cases isLetter c d with
    | false => rfl
    | true => rfl

/-- In small letters a run finds the same captures, in small letters. -/
theorem run_lower (p : Pattern) {after afterSmall : Text → Option Captures}
    (h : ∀ t, afterSmall (lower t) = (after t).map (List.map Stretch.lower)) (t : Text) :
    p.run afterSmall (lower t) = (p.run after t).map (List.map Stretch.lower) := by
  induction p generalizing after afterSmall t with
  | nothing => exact h t
  | letter c => exact afterLetter_lower c h t
  | gap => exact longest_lower Text.caseBlind_isBlank h t
  | capture =>
    have hstops : ∀ stop, (afterSmall (lower stop)).map (lower stop, ·) =
        ((after stop).map (stop, ·)).map (Prod.map lower (List.map Stretch.lower)) := by
      intro stop
      rw [h, Option.map_map, Option.map_map]
      rfl
    rw [run, longest_lower (Text.caseBlind_ne (by decide)) hstops, run, Option.map_map,
      Option.map_map]
    rfl
  | next first second hfirst hsecond => exact hfirst (fun rest => hsecond h rest) t
  | either preferred other hpreferred hother =>
    rw [run, run, hpreferred h, hother h]
    cases preferred.run after t with
    | none => rfl
    | some found => rfl

theorem suffixes_lower (t : Text) :
    MatchTable.suffixes (lower t) = (MatchTable.suffixes t).map lower := by
  rw [MatchTable.suffixes_eq_tails, MatchTable.suffixes_eq_tails]
  exact List.map_tails Char.toLower

theorem search?_lower (p : Pattern) (t : Text) :
    p.search? (lower t) = (p.search? t).map (List.map Stretch.lower) := by
  rw [search?_eq, search?_eq, suffixes_lower, List.findSome?_map, List.map_findSome?]
  refine congrArg (List.findSome? · _) (funext fun start => ?_)
  exact run_lower p (fun _ => rfl) start

end Pattern

/-! ## Rules -/

namespace Rule

/-- In small letters the same rule is the first that fits. -/
theorem first?_lower (t : Text) :
    first? (lower t) = (first? t).map (Prod.map id (List.map Stretch.lower)) := by
  rw [first?, first?, List.map_findSome?]
  refine congrArg (List.findSome? · all) (funext fun rule => ?_)
  rw [Pattern.search?_lower, Option.map_map, Function.comp, Option.map_map]
  rfl

theorem clean_lower (argument : Text) : clean (lower argument) = lower (clean argument) := by
  have hquotes : CaseBlind fun c => c ≠ '\x27' && c ≠ '"' := by
    intro c
    have hsingle : decide (c.toLower ≠ '\x27') = decide (c ≠ '\x27') :=
      Text.caseBlind_ne (by decide) c
    have hdouble : decide (c.toLower ≠ '"') = decide (c ≠ '"') :=
      Text.caseBlind_ne (by decide) c
    simp only [hsingle, hdouble]
  rw [clean, Text.trim_lower, Text.filter_lower hquotes, clean]

theorem lower_raw (home : Text) (captures : Captures) (part : Part) :
    lower (raw home (captures.map Stretch.lower) part) = lower (raw home captures part) := by
  cases part with
  | captured n =>
    rw [raw, raw, List.getElem?_map]
    cases captures[n]? with
    | none => rfl
    | some stretch =>
      rw [Option.map_some, Option.elim_some, Option.elim_some, Stretch.text_lower,
        Text.lower_lower]
  | literal t => rfl
  | home => rfl

/-- The command line of a rule in small letters. -/
theorem lower_command (rule : Rule) (home : Text) (captures : Captures) :
    lower (rule.command home captures) =
      Text.join [' '] (lower rule.verb ::
        (rule.arguments.map fun part => clean (lower (raw home captures part))).filter
          (· ≠ [])) := by
  have hsmall : (lower ∘ fun part => clean (raw home captures part)) =
      fun part => clean (lower (raw home captures part)) :=
    funext fun part => (clean_lower _).symm
  rw [command, Text.lower_join, List.map_cons, ← hsmall, ← List.map_map,
    Text.filter_nonempty_lower]
  rfl

/-- Captures in other letters make no difference to a command line in small letters. -/
theorem lower_command_lower (rule : Rule) (home : Text) (captures : Captures) :
    lower (rule.command home (captures.map Stretch.lower)) =
      lower (rule.command home captures) := by
  simp only [lower_command, lower_raw]

end Rule

/-! ## Readings -/

/-- A route with the letters of its captures made small. -/
def Route.lower : Route → Route
  | .direct => .direct
  | .phrase rule captures => .phrase rule (captures.map Stretch.lower)
  | .fallback => .fallback

theorem Route.of_lower (t : Text) : Route.of (Text.lower t) = (Route.of t).lower := by
  rw [Route.of, Route.of, Vocabulary.opensWithVerb_lower, Rule.first?_lower]
  cases Vocabulary.opensWithVerb t with
  | true => rfl
  | false =>
    cases Rule.first? t with
    | none => rfl
    | some found => rfl

namespace Interpretation

variable (home : Text)

theorem confidence_lower (t : Text) :
    (ofInput home (lower t)).confidence = (ofInput home t).confidence := by
  rw [ofInput, ofInput, Text.trim_lower, Route.of_lower]
  cases Route.of (Text.trim t) with
  | direct => rfl
  | phrase rule captures => rfl
  | fallback => rfl

theorem command_lower (t : Text) :
    lower (ofInput home (lower t)).command = lower (ofInput home t).command := by
  rw [ofInput, ofInput, Text.trim_lower, Route.of_lower]
  cases Route.of (Text.trim t) with
  | direct => exact Text.lower_lower (Text.trim t)
  | phrase rule captures => exact rule.lower_command_lower home captures
  | fallback => exact Text.lower_lower (Text.trim t)

/-- Two inputs that differ in the case of ASCII letters alone are read alike.  They take the same
route, by the same rule and with captures at the same places.  The readings are equally sure, and
their command lines differ in the case of letters alone. -/
theorem reading_ignores_case {x y : Text} (h : Text.sameLetters x y = true) :
    (Route.of (Text.trim y)).lower = (Route.of (Text.trim x)).lower ∧
      (ofInput home y).confidence = (ofInput home x).confidence ∧
      Text.sameLetters (ofInput home y).command (ofInput home x).command = true := by
  have hsame : lower x = lower y := of_decide_eq_true h
  refine ⟨?_, ?_, decide_eq_true ?_⟩
  · rw [← Route.of_lower, ← Route.of_lower, ← Text.trim_lower, ← Text.trim_lower, hsame]
  · rw [← confidence_lower home y, ← confidence_lower home x, hsame]
  · rw [← command_lower home y, ← command_lower home x, hsame]

theorem reading_ignores_case_quotes :
    Text.sameLetters " GO to 'My Docs'" " go TO 'mY dOCS'" = true ∧
      (ofInput [] " GO to 'My Docs'").command = "cd My Docs".toList ∧
      (Route.of (Text.trim " go TO 'mY dOCS'")).lower =
        (Route.of (Text.trim " GO to 'My Docs'")).lower ∧
      (ofInput [] " go TO 'mY dOCS'").confidence = (ofInput [] " GO to 'My Docs'").confidence ∧
      Text.sameLetters (ofInput [] " go TO 'mY dOCS'").command
        (ofInput [] " GO to 'My Docs'").command = true :=
  have hsame : Text.sameLetters " GO to 'My Docs'" " go TO 'mY dOCS'" = true := by decide
  ⟨hsame, by decide +kernel, reading_ignores_case [] hsame⟩

end Interpretation

end DriveShell
