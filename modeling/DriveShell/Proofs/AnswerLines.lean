import DriveShell.Proofs.History
import DriveShell.Proofs.Recognition

/-!
# The lines of an answer

An answer that does not clear the display begins with the echo of its input.  A hint follows if
the confidence of the reading lies strictly between the thresholds, and then comes what the
command line gave: one error for a failure, and for a success one output or nothing
(`lines_of_answer`).

Two independent facts go into this.

* The thresholds of settings that pass the check are finite numbers from zero to one, and so is
  every confidence.  Comparing them is comparing their values, and an input that begins with a
  known verb, whose confidence is one, is never below the upper threshold.
* A wish is granted and not printed.  The wish to clear the display leaves no lines at all.  Where
  the history is wished for, every line of the answer holds a character that the reserved word for
  that wish does not have: the echo the end of its prompt, the others a blank.
-/

namespace DriveShell

/-! ## Finite numbers -/

namespace Floating

/-- Whether a number is finite. -/
def isFinite : Floating → Bool
  | .finite .. => true
  | _ => false

variable {x y : Floating}

theorem lt_iff_value (hx : x.isFinite = true) (hy : y.isFinite = true) :
    x.lt y = true ↔ x.value < y.value := by
  cases x with
  | finite =>
    cases y with
    | finite => exact decide_eq_true_iff
    | nan => cases hy
    | infinite => cases hy
  | nan => cases hx
  | infinite => cases hx

/-- Nothing infinite lies between zero and one. -/
theorem isFinite_of_between (low : zero.le x = true) (high : x.le one = true) :
    x.isFinite = true ∧ x.value ≤ 1 := by
  have hone : one.value = 1 := by decide +kernel
  cases x with
  | nan => cases high
  | infinite negative =>
    cases negative with
    | false => cases high
    | true => cases low
  | finite negative significand exponent =>
    rw [← hone]
    exact ⟨rfl, of_decide_eq_true high⟩

end Floating

/-- The thresholds of settings that pass the check are finite, and the upper one is at most one. -/
theorem Config.thresholds_of_check {config : Config} (h : config.check = .ok ()) :
    config.hintLow.isFinite = true ∧ config.hintHigh.isFinite = true ∧
      config.hintHigh.value ≤ 1 := by
  have hordered : config.thresholdsInOrder = true := by
    by_contra hdisordered
    rw [check] at h
    split at h
    next => cases h
    next =>
      split at h
      next => cases h
      next =>
        rw [if_pos (by simpa using hdisordered)] at h
        cases h
  simp only [thresholdsInOrder, isThreshold, Bool.and_eq_true] at hordered
  obtain ⟨⟨⟨hzeroLow, hlowOne⟩, hzeroHigh, hhighOne⟩, -⟩ := hordered
  obtain ⟨hhigh, hatMost⟩ := Floating.isFinite_of_between hzeroHigh hhighOne
  exact ⟨(Floating.isFinite_of_between hzeroLow hlowOne).1, hhigh, hatMost⟩

namespace Interpretation

variable {home input : Text}

theorem isFinite_confidence (home input : Text) :
    (ofInput home input).confidence.isFinite = true := by
  have hrules : ∀ rule ∈ Rule.all, rule.confidence.isFinite = true := by decide +kernel
  rw [ofInput]
  cases hroute : Route.of (Text.trim input) with
  | direct => rfl
  | phrase rule captures => exact hrules rule (Rule.mem_of_first? (Route.first?_of_phrase hroute))
  | fallback =>
    change fallbackConfidence.isFinite = true
    decide +kernel

theorem value_confidence_of_opensWithVerb (home : Text)
    (h : Vocabulary.opensWithVerb input = true) : (ofInput home input).confidence.value = 1 := by
  have hroute : Route.of (Text.trim input) = .direct := by
    rw [Route.of, Vocabulary.opensWithVerb_trim, if_pos h]
  rw [ofInput, hroute]
  change directConfidence.value = 1
  decide +kernel

end Interpretation

/-! ## Lines -/

namespace Line

/-- The text of a line. -/
def text : Line → Text
  | .command t | .output t | .error t | .info t => t

/-- Whether a line shows what a command put out. -/
def isOutput : Line → Bool
  | .output _ => true
  | _ => false

/-- Whether a line tells why a command failed. -/
def isError : Line → Bool
  | .error _ => true
  | _ => false

/-- Whether a line is a hint. -/
def isInfo : Line → Bool
  | .info _ => true
  | _ => false

end Line

namespace Session

variable {s : Session} {input : Text} {answer : Submission}

/-- The lines for what a command line gave, and whether it is reported as a success. -/
inductive Response (history : List Text) : Except Failure Output → Bool → List Line → Prop
  /-- A failure is told in one line. -/
  | failed (failure : Failure) :
    Response history (.error failure) false [.error failure.message]
  /-- Nothing is put out. -/
  | silent : Response history (.ok .none) true []
  /-- The text that is put out is empty. -/
  | empty : Response history (.ok (.text [])) true []
  /-- A text is shown. -/
  | spoken {t : Text} :
    t ≠ [] →
    Response history (.ok (.text t)) true [.output t]
  /-- The history is shown. -/
  | recalled :
    Response history (.ok .history) true [.output (historyText history)]

theorem response_of_ne_clear (history : List Text) {result : Except Failure Output}
    (h : result ≠ .ok .clear) :
    Response history result result.isOk (resultLines history result) := by
  cases result with
  | error failure => exact .failed failure
  | ok output =>
    cases output with
    | none => exact .silent
    | clear => exact absurd rfl h
    | history => exact .recalled
    | text t =>
      rw [resultLines]
      split
      next hempty =>
        rw [hempty]
        exact .empty
      next hnonempty => exact .spoken hnonempty

/-- An output has something to show: a text that is not empty, or the history that it wishes
for. -/
def Shows (result : Except Failure Output) : Prop :=
  (∃ t, t ≠ [] ∧ result = .ok (.text t)) ∨ result = .ok .history

/-- The confidence of a reading lies strictly between the thresholds. -/
def Hinted (s : Session) (input : Text) : Prop :=
  s.config.hintLow.value < (s.explain input).confidence.value ∧
    (s.explain input).confidence.value < s.config.hintHigh.value

theorem wantsHint_iff (valid : s.config.check = .ok ()) :
    s.config.wantsHint (s.explain input).confidence = true ↔ s.Hinted input := by
  obtain ⟨hlow, hhigh, -⟩ := Config.thresholds_of_check valid
  have hconfidence := Interpretation.isFinite_confidence s.config.home input
  rw [Config.wantsHint, Bool.and_eq_true, Hinted]
  exact and_congr (Floating.lt_iff_value hlow hconfidence)
    (Floating.lt_iff_value hconfidence hhigh)

theorem not_hinted_of_opensWithVerb (valid : s.config.check = .ok ())
    (h : Vocabulary.opensWithVerb input = true) : ¬s.Hinted input := by
  rintro ⟨-, hbelow⟩
  rw [explain, Interpretation.value_confidence_of_opensWithVerb s.config.home h] at hbelow
  exact Rat.not_lt.2 (Config.thresholds_of_check valid).2.2 hbelow

/-- The settings of a session that was started pass the check. -/
theorem check_of_start {config : Config} {host : Host} (h : start config host = .ok s) :
    s.config.check = .ok () := by
  obtain ⟨hcheck, -, hscene⟩ := of_start_eq_ok h
  rwa [Session.config, hscene]

/-! ## Answers -/

/-- What an answer that does not clear the display consists of. -/
structure Composed (s : Session) (input : Text) (answer : Submission)
    (hint results : List Line) : Prop where
  /-- The trimmed input behind the prompt, the hint, and the results, in this order. -/
  lines : answer.lines = .command (s.prompt ++ Text.trim input) :: (hint ++ results)
  /-- The hint is one line or none, as the confidence demands. -/
  hint : s.Hinted input ∧ hint = [.info ("💡 " ++ (s.explain input).explanation)] ∨
    ¬s.Hinted input ∧ hint = []
  /-- The results are those of the command line. -/
  results : Response (remember s.history (Text.trim input)) (s.outcome input).1 answer.success
    results

theorem composed_submit (valid : s.config.check = .ok ())
    (h : (s.submit input).1 = some answer) (kept : answer.cleared = false) :
    ∃ hint results, s.Composed input answer hint results := by
  have hblank := trim_ne_nil_of_submit h
  rw [submit, if_neg hblank] at h
  simp only at h
  split at h
  next =>
    cases h
    cases kept
  next result hother =>
    cases h
    refine ⟨_, _, rfl, ?_, response_of_ne_clear _ fun hclear => hother hclear⟩
    by_cases hhint : s.Hinted input
    · refine Or.inl ⟨hhint, ?_⟩
      rw [explain_trim, if_pos ((wantsHint_iff valid).2 hhint)]
    · refine Or.inr ⟨hhint, ?_⟩
      rw [explain_trim, if_neg fun hwants => hhint ((wantsHint_iff valid).1 hwants)]

/-- The lines of a response by their kinds. -/
theorem Response.counts {history : List Text} {result : Except Failure Output} {success : Bool}
    {lines : List Line} (h : Response history result success lines) :
    lines.countP Line.isInfo = 0 ∧
      (success = true → lines.countP Line.isError = 0 ∧
        lines.countP Line.isOutput ≤ 1 ∧ (0 < lines.countP Line.isOutput ↔ Shows result)) ∧
      (success = false → lines.countP Line.isError = 1 ∧ lines.countP Line.isOutput = 0) := by
  cases h with
  | failed failure => exact ⟨rfl, nofun, fun _ => ⟨rfl, rfl⟩⟩
  | silent =>
    refine ⟨rfl, fun _ => ⟨rfl, Nat.zero_le _, iff_of_false (Nat.lt_irrefl 0) ?_⟩, nofun⟩
    rintro (⟨t, -, htext⟩ | hhistory)
    · cases htext
    · cases hhistory
  | empty =>
    refine ⟨rfl, fun _ => ⟨rfl, Nat.zero_le _, iff_of_false (Nat.lt_irrefl 0) ?_⟩, nofun⟩
    rintro (⟨t, hnonempty, htext⟩ | hhistory)
    · cases htext
      exact hnonempty rfl
    · cases hhistory
  | @spoken t hnonempty =>
    exact ⟨rfl, fun _ => ⟨rfl, le_refl 1, iff_of_true Nat.one_pos (Or.inl ⟨t, hnonempty, rfl⟩)⟩,
      nofun⟩
  | recalled => exact ⟨rfl, fun _ => ⟨rfl, le_refl 1, iff_of_true Nat.one_pos (Or.inr rfl)⟩, nofun⟩

namespace Composed

variable {hint results : List Line}

/-- Lines of a kind that neither echoes nor hints have are among the results. -/
theorem countP_eq (h : s.Composed input answer hint results) (kind : Line → Bool)
    (hcommand : ∀ t, kind (.command t) = false) (hinfo : ∀ t, kind (.info t) = false) :
    answer.lines.countP kind = results.countP kind := by
  have hhint : hint.countP kind = 0 := by
    rcases h.hint with ⟨-, rfl⟩ | ⟨-, rfl⟩
    · simp [hinfo]
    · rfl
  rw [h.lines, List.countP_cons_of_neg (by simp [hcommand]), List.countP_append, hhint,
    Nat.zero_add]

theorem notMem_info (h : s.Composed input answer hint results) (unhinted : ¬s.Hinted input)
    (t : Text) : .info t ∉ answer.lines := by
  have hresults : ∀ line ∈ results, ¬line.isInfo = true :=
    List.countP_eq_zero.1 h.results.counts.1
  rcases h.hint with ⟨hhinted, -⟩ | ⟨-, rfl⟩
  · exact absurd hhinted unhinted
  · rw [h.lines, List.nil_append, List.mem_cons, not_or]
    exact ⟨nofun, fun hmem => hresults _ hmem rfl⟩

end Composed

/-! ## Wishes are not printed -/

/-- A list of inputs is shown with blanks behind its numbers. -/
theorem blank_mem_historyText {history : List Text} (h : history ≠ []) :
    ' ' ∈ historyText history := by
  obtain ⟨input, inputs, rfl⟩ := List.exists_cons_of_ne_nil h
  have hfirst : ' ' ∈ Text.ofNat 1 ++ "  ".toList ++ input := by simp
  rw [historyText, if_neg h]
  exact Text.mem_join List.mem_cons_self hfirst

/-- Where the history is wished for, no line is the reserved word for that wish. -/
theorem Composed.text_ne_history {hint results : List Line}
    (h : s.Composed input answer hint results) (asked : (s.outcome input).1 = .ok .history) :
    ∀ line ∈ answer.lines, line.text ≠ Output.display .history := by
  have hblank : ' ' ∉ Output.display .history := by decide
  have hprompt : '>' ∉ Output.display .history := by decide
  have hresults := h.results
  rw [asked] at hresults
  intro line hline htext
  rw [h.lines, List.mem_cons, List.mem_append] at hline
  rcases hline with rfl | hhint | hresult
  · refine hprompt (htext ▸ ?_)
    simp [Line.text, prompt]
  · refine hblank (htext ▸ ?_)
    rcases h.hint with ⟨-, rfl⟩ | ⟨-, rfl⟩
    · rw [List.mem_singleton.1 hhint]
      simp [Line.text]
    · cases hhint
  · refine hblank (htext ▸ ?_)
    generalize answer.success = success at hresults
    cases hresults
    rw [List.mem_singleton.1 hresult]
    refine blank_mem_historyText fun hnil => ?_
    have hlast := getLast?_remember s.history (Text.trim input)
    rw [hnil] at hlast
    cases hlast

/-! ## The theorem -/

/-- Whatever has come before, the answer to an input is made up as follows under settings that
pass the check.

If the display is not cleared, then there is the echo of the trimmed input behind the prompt,
a hint if the confidence of the reading lies strictly between the thresholds, and the response to
what the command line gave.  A success shows no error and at most one output, and it shows one
exactly for a text that is not empty and for the history.  A failure shows one error and no output.

In every case a failure is reported exactly if an error is shown, an input that begins with a known
verb gets no hint, and the reserved word of a wish that was put out is not the text of any line. -/
theorem lines_of_answer (s : Session) (valid : s.config.check = .ok ()) (input : Text)
    {answer : Submission} (h : (s.submit input).1 = some answer) :
    (answer.cleared = false →
      (∃ hint results, s.Composed input answer hint results) ∧
      (answer.success = true →
        answer.lines.countP Line.isError = 0 ∧ answer.lines.countP Line.isOutput ≤ 1 ∧
        (0 < answer.lines.countP Line.isOutput ↔ Shows (s.outcome input).1)) ∧
      (answer.success = false →
        answer.lines.countP Line.isError = 1 ∧ answer.lines.countP Line.isOutput = 0)) ∧
    (answer.success = false ↔ ∃ line ∈ answer.lines, line.isError = true) ∧
    (Vocabulary.opensWithVerb input = true → ∀ hint, .info hint ∉ answer.lines) ∧
    ∀ wish : Output, wish.wisher?.isSome = true → (s.outcome input).1 = .ok wish →
      ∀ line ∈ answer.lines, line.text ≠ wish.display := by
  cases hcleared : answer.cleared with
  | true =>
    obtain ⟨hlines, hsuccess⟩ := bare_of_cleared h hcleared
    rw [hlines, hsuccess]
    exact ⟨nofun, by simp, fun _ _ => List.not_mem_nil, fun _ _ _ => nofun⟩
  | false =>
    obtain ⟨hint, results, hcomposed⟩ := composed_submit valid h hcleared
    have herrors := hcomposed.countP_eq Line.isError (fun _ => rfl) (fun _ => rfl)
    have houtputs := hcomposed.countP_eq Line.isOutput (fun _ => rfl) (fun _ => rfl)
    obtain ⟨-, hsucceeded, hfailed⟩ := hcomposed.results.counts
    rw [← herrors, ← houtputs] at hsucceeded hfailed
    refine ⟨fun _ => ⟨⟨hint, results, hcomposed⟩, hsucceeded, hfailed⟩, ?_, ?_, ?_⟩
    · rw [← List.countP_pos_iff]
      cases hsuccess : answer.success with
      | true => simp [(hsucceeded hsuccess).1]
      | false => simp [(hfailed hsuccess).1]
    · exact fun hverb => hcomposed.notMem_info (not_hinted_of_opensWithVerb valid hverb)
    · intro wish hwish hasked
      cases wish with
      | text t => cases hwish
      | none => cases hwish
      | history => exact hcomposed.text_ne_history hasked
      | clear =>
        obtain ⟨found, hfound, answered⟩ := s.answered_submit (trim_ne_nil_of_submit h)
        cases Option.some.inj (h.symm.trans hfound)
        rw [answered.cleared.2 hasked] at hcleared
        cases hcleared

/-- With the upper threshold at nine tenths a phrase of eight tenths gets a hint, and its failure
one error.  A phrase of nine tenths gets none, and its output is the history. -/
theorem lines_of_answer_at_threshold :
    let config : Config := { hintHigh := Format.single.ofDecimal false 9 (-1) }
    let failed : Submission := {
      lines := [
        .command "C:\\Users\\Administrator>read notes",
        .info "💡 Interpreted \"read notes\" as \"type notes\"",
        .error "The system cannot find the file specified."]
      cleared := false
      success := false }
    let listed : Submission := {
      lines := [
        .command "C:\\Users\\Administrator>list past command",
        .output "1  list past command"]
      cleared := false
      success := true }
    ∃ s, start config Registry.epoch.host = .ok s ∧
      s.config.check = .ok () ∧
      (s.submit " read notes").1 = some failed ∧
      (∃ hint results, s.Composed " read notes" failed hint results) ∧
      failed.lines.countP Line.isError = 1 ∧
      (s.submit "list past command").1 = some listed ∧
      ∀ line ∈ listed.lines, line.text ≠ "SHOW_HISTORY".toList := by
  intro config failed listed
  have hcheck : config.check = .ok () := by decide +kernel
  have hstart := start_eq_ok hcheck rfl Registry.epoch.host
  have hvalid := check_of_start hstart
  obtain ⟨hcomposed, -, hfailed⟩ :=
    (lines_of_answer _ hvalid " read notes" (show _ = some failed by decide +kernel)).1 rfl
  have hwish := (lines_of_answer _ hvalid "list past command"
    (show _ = some listed by decide +kernel)).2.2.2 .history rfl (by decide +kernel)
  exact ⟨_, hstart, hvalid, by decide +kernel, hcomposed, (hfailed rfl).1, by decide +kernel, hwish⟩

end Session

end DriveShell
