import DriveShell.Proofs.OpenQuotes
import DriveShell.Proofs.Rereading
import DriveShell.Proofs.UnknownVerbs

/-!
# Verbs that readings begin with

A reading that is surer than the fallback begins with a known verb: the input did, or a rule has
put its own verb in front.  Such a verb is listed in the registry (`sure_reading_is_recognized`).
Two lists and a table of rules are involved in this.  The verbs of the rules are known to the
vocabulary, and the words of the vocabulary are listed.

Two ways of cutting the line have to agree as well.  The vocabulary looks at the first run of
characters without blanks, and the line is run on its first word outside of quotes and of the
redirection.  A known verb holds neither a quote nor an operator, so that both are the same.

The command line of a phrase is without quotes altogether.  The arguments lose theirs, also where
they are the home, and the verbs have none.  So a quote cannot stay open in it.

That the verb is listed does not keep a line from failing with an unknown verb.  A host reports
failures of its own, and these may be any, so even `date` fails in this way where the clock answers
so (`sure_reading_unknown_to_host`).  There is no other way.
-/

namespace DriveShell

/-! ## Words of the vocabulary -/

namespace Vocabulary

variable {word : Text}

theorem mem_of_isKnownVerb (h : isKnownVerb word = true) :
    Text.lower word ∈ verbs ++ aliases := by
  simp only [isKnownVerb, Bool.or_eq_true, Bool.and_eq_true, List.contains_iff_mem] at h
  rcases h with hverb | ⟨halias, -⟩
  · exact List.mem_append_left _ hverb
  · exact List.mem_append_right _ halias

/-- A known verb has no character that belongs to the quotes or the operator of a line. -/
theorem plain_of_isKnownVerb (h : isKnownVerb word = true) :
    '"' ∉ word ∧ word.head? ≠ some '>' := by
  have hplain : ∀ known ∈ verbs ++ aliases, '"' ∉ known ∧ '>' ∉ known := by decide
  obtain ⟨unquoted, plain⟩ := hplain _ (mem_of_isKnownVerb h)
  exact Registry.plain_of_lower unquoted plain

end Vocabulary

/-! ## Known verbs -/

namespace Registry

variable {line verb : Text}

/-- Every word of the vocabulary is listed. -/
theorem listed_vocabulary :
    ∀ word ∈ Vocabulary.verbs ++ Vocabulary.aliases, word = helpVerb ∨
      (builtin.commands.reverse.find? (·.spellings.contains word)).isSome = true := by
  decide

theorem isSome_canonicalVerb (h : Vocabulary.isKnownVerb verb = true) :
    (builtin.canonicalVerb verb).isSome = true := by
  rw [canonicalVerb, isHelp, lookup]
  by_cases hhelp : Text.lower verb = helpVerb
  · rw [if_pos (decide_eq_true hhelp), Option.isSome_some]
  · rw [if_neg (by simpa using hhelp), Option.isSome_map]
    exact (listed_vocabulary _ (Vocabulary.mem_of_isKnownVerb h)).resolve_left hhelp

/-- If a line begins with a known verb, then it runs that verb or none. -/
theorem isKnownVerb_of_opensWithVerb (h : Vocabulary.opensWithVerb line = true)
    (hverb : verb? line = some verb) : Vocabulary.isKnownVerb verb = true := by
  obtain ⟨word, hfirst, hknown⟩ := (Option.any_eq_true _ _).1 h
  obtain ⟨unquoted, plain⟩ := Vocabulary.plain_of_isKnownVerb hknown
  have hword : verb? line = some word := by
    rw [verb?] at hverb
    split at hverb
    next hparts => exact verb?_of_firstWord hfirst unquoted plain hparts
    next => cases hverb
  rwa [← Option.some.inj (hword.symm.trans hverb)]

end Registry

/-! ## Lines without quotes -/

namespace Words

/-- A line without quotes can be cut into words. -/
theorem ofLine_unquoted {line : Text} (unquoted : '"' ∉ line) :
    ∃ words, ofLine line = .ok words := by
  have heven : Even (line.count '"') := by
    rw [List.count_eq_zero.2 unquoted]
    exact Even.zero
  obtain ⟨words, hwords, -⟩ := exists_ofLine heven
  exact ⟨words, hwords⟩

end Words

/-- The command line of a rule holds no quote, whatever is captured and whatever the home is. -/
theorem Rule.unquoted_command {rule : Rule} (h : rule ∈ all) (home : Text)
    (captures : Captures) : ∀ c ∈ rule.command home captures, c ≠ '\x27' ∧ c ≠ '"' := by
  have hverbs : ∀ rule ∈ all, rule.verb.all (fun c => c ≠ '\x27' ∧ c ≠ '"') = true := by decide
  have hverb : ∀ c ∈ rule.verb, c ≠ '\x27' ∧ c ≠ '"' := by
    simpa only [List.all_eq_true, decide_eq_true_eq] using hverbs rule h
  refine Text.forall_mem_join (List.forall_mem_singleton.2 (by decide))
    (List.forall_mem_cons.2 ⟨hverb, ?_⟩)
  intro argument hargument c hc
  obtain ⟨part, -, rfl⟩ := List.mem_map.1 (List.mem_of_mem_filter hargument)
  simpa using (List.mem_filter.1 hc).2

/-! ## Readings by their confidence -/

theorem Floating.lt_self (x : Floating) : x.lt x = false := by
  cases x with
  | nan => rfl
  | infinite negative => exact Bool.and_not_self negative
  | finite negative significand exponent => exact decide_eq_false Rat.lt_irrefl

namespace Interpretation

variable {home input : Text}

/-- What is surer than the fallback and less sure than a direct command is a phrase, and every
phrase is. -/
theorem between_iff :
    (fallbackConfidence.lt (ofInput home input).confidence = true ∧
        (ofInput home input).confidence.lt directConfidence = true) ↔
      ∃ rule captures, Route.of (Text.trim input) = .phrase rule captures := by
  have hrules : ∀ rule ∈ Rule.all, fallbackConfidence.lt rule.confidence = true ∧
      rule.confidence.lt directConfidence = true := by
    decide +kernel
  rw [ofInput]
  cases hroute : Route.of (Text.trim input) with
  | direct =>
    refine iff_of_false (fun h => Bool.eq_false_iff.1 directConfidence.lt_self h.2) ?_
    rintro ⟨rule, captures, ⟨⟩⟩
  | phrase rule captures =>
    exact iff_of_true (hrules rule (Rule.mem_of_first? (Route.first?_of_phrase hroute)))
      ⟨rule, captures, rfl⟩
  | fallback =>
    refine iff_of_false (fun h => Bool.eq_false_iff.1 fallbackConfidence.lt_self h.1) ?_
    rintro ⟨rule, captures, ⟨⟩⟩

theorem opensWithVerb_of_sure
    (sure : fallbackConfidence.lt (ofInput home input).confidence = true) :
    Vocabulary.opensWithVerb (ofInput home input).command = true := by
  rw [ofInput] at sure ⊢
  cases hroute : Route.of (Text.trim input) with
  | direct => exact Route.opensWithVerb_of_direct hroute
  | phrase rule captures =>
    have hrule := Rule.mem_of_first? (Route.first?_of_phrase hroute)
    exact Rule.opensWithVerb_command hrule home captures
  | fallback =>
    rw [hroute] at sure
    exact absurd sure (Bool.eq_false_iff.1 fallbackConfidence.lt_self)

/-- Even a known verb fails as unknown if the host says so: `date`, where the clock answers with
that failure. -/
theorem sure_reading_unknown_to_host :
    ¬∀ home input : Text,
      (Format.single.ofDecimal false 1 (-1)).lt (ofInput home input).confidence = true →
        ∀ (scene : Scene) (world : World),
          let line := (ofInput home input).command
          (∀ verb, ((Registry.builtin.runLine line).outcome scene world).1 ≠
              .error (.unrecognized verb)) ∧
            ((ofInput home input).confidence.lt .one = true →
              '\x27' ∉ line ∧ '"' ∉ line ∧ Words.ofLine line ≠ .error .unterminatedQuote) := by
  intro h
  let host : Host := .scripted (.error (.unrecognized "date")) [] (.error (.host "no load"))
  have hsure : (Format.single.ofDecimal false 1 (-1)).lt (ofInput [] "date").confidence = true := by
    decide +kernel
  have hline : (ofInput [] "date").command = "date".toList := by decide +kernel
  have hrun : ((Registry.builtin.runLine "date").outcome ⟨{}, host⟩ (Registry.worldOf [])).1 =
      .error (.unrecognized "date") := rfl
  have hnever := (h [] "date" hsure ⟨{}, host⟩ (Registry.worldOf [])).1 "date"
  rw [hline] at hnever
  exact hnever hrun

/-- A reading that is surer than one tenth stands for a line whose verb is listed.  The line fails
with an unknown verb exactly if one of the calls of the host that it makes is answered with that
failure.  If the reading is less sure than a direct command, then the line holds no quote, and it
can be cut into words. -/
theorem sure_reading_is_recognized (home input : Text)
    (sure : (Format.single.ofDecimal false 1 (-1)).lt (ofInput home input).confidence = true)
    (scene : Scene) (world : World) :
    let line := (ofInput home input).command
    let ran := (Registry.builtin.runLine line).outcome scene world
    (∀ verb ∈ Registry.verb? line, (Registry.builtin.canonicalVerb verb).isSome = true) ∧
      (∀ verb, ran.1 = .error (.unrecognized verb) ↔
        scene.host.Reported world ran.2 (.unrecognized verb)) ∧
      ((ofInput home input).confidence.lt .one = true →
        '\x27' ∉ line ∧ '"' ∉ line ∧ ∃ words, Words.ofLine line = .ok words) := by
  intro line ran
  have hopens : Vocabulary.opensWithVerb line = true := opensWithVerb_of_sure sure
  have hlisted : ∀ verb ∈ Registry.verb? line,
      (Registry.builtin.canonicalVerb verb).isSome = true := fun verb hverb =>
    Registry.isSome_canonicalVerb (Registry.isKnownVerb_of_opensWithVerb hopens hverb)
  have hcourse : Registry.Course Registry.builtin scene world line ran.1 ran.2 :=
    Registry.runLine_course Registry.builtin scene world line
  refine ⟨hlisted, fun verb => hcourse.unknown_iff hlisted rfl, fun doubt => ?_⟩
  obtain ⟨rule, captures, hroute⟩ := between_iff.1 ⟨sure, doubt⟩
  have hrule := Rule.mem_of_first? (Route.first?_of_phrase hroute)
  have hcommand : line = rule.command home captures := by
    simp only [line, ofInput, hroute, ofRoute]
  have hunquoted : ∀ c ∈ line, c ≠ '\x27' ∧ c ≠ '"' := by
    rw [hcommand]
    exact Rule.unquoted_command hrule home captures
  have hdouble : '"' ∉ line := fun hc => (hunquoted _ hc).2 rfl
  exact ⟨fun hc => (hunquoted _ hc).1 rfl, hdouble, Words.ofLine_unquoted hdouble⟩

/-- The home and the name of a file hold quotes, and the file is to be made by a redirection.  It is
made, and the host is not asked. -/
theorem sure_reading_is_recognized_quotes :
    let home : Text := "C:\\\"O'Neil"
    let input : Text := "create file \"it's\" >x"
    let ran := (Registry.builtin.runLine "echo > its >x").outcome Registry.epoch
      (Registry.worldOf [])
    (Format.single.ofDecimal false 1 (-1)).lt (ofInput home input).confidence = true ∧
      (ofInput home input).command = "echo > its >x".toList ∧
      (ofInput home "go home").command = "cd C:\\ONeil".toList ∧
      (∀ verb, ran.1 = .error (.unrecognized verb) ↔
        Registry.epoch.host.Reported (Registry.worldOf []) ran.2 (.unrecognized verb)) ∧
      ran = (.ok .none, Registry.worldOf [("its", .file ">x")]) ∧
      ∃ words, Words.ofLine "echo > its >x" = .ok words := by
  intro home input ran
  have hsure : (Format.single.ofDecimal false 1 (-1)).lt (ofInput home input).confidence = true :=
    by decide +kernel
  have hdoubt : (ofInput home input).confidence.lt .one = true := by decide +kernel
  have hline : (ofInput home input).command = "echo > its >x".toList := by decide +kernel
  obtain ⟨-, hunknown, hquotes⟩ :=
    sure_reading_is_recognized home input hsure Registry.epoch (Registry.worldOf [])
  rw [hline] at hunknown hquotes
  exact ⟨hsure, hline, by decide +kernel, hunknown, rfl, (hquotes hdoubt).2.2⟩

end Interpretation

end DriveShell
