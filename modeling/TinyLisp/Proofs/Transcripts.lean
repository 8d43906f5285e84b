/-
Transcripts compose line by line.

A run that goes through all of its lines leaves a session, and a run on more
lines goes on in it: what it writes is what the first part writes, less the last
prompt, and then what the second part writes. So a run is told by its lines:
each has its prompt and its own contribution, a printed result, a report, or
nothing.

* `splitLines_append`: a text up to a line break has its own lines.
* `Session.runText`: the loop on a text, in any session.
* `Session.exists_answersLines`: a run that raises nothing answers every line.
* `Session.runLines_append_of_raised`: one that raises never sees the lines behind.
* `Session.Contributes`, `Session.Contribute`: what a line adds to the two outputs,
  and what some lines add.
* `Session.AnswersLines.runText_append`, `Session.exists_contribute_of_runText`: a
  longer text, and a text whose run raises nothing.
* `transcripts_compose` (**transcripts compose**).
-/
import TinyLisp.Proofs.ReplRuns

namespace TinyLisp

/-! ### Lines of a longer text -/

/-- The lines up to a line break do not depend on what comes behind it. -/
lemma splitLines_break (s t : List Char) :
    splitLines (s ++ '\n' :: t) = splitLines (s ++ ['\n']) ++ splitLines t := by
  induction s with
  | nil => simp [splitLines]
  | cons c s ih =>
      have hne : splitLines (s ++ ['\n']) ≠ [] := by
        intro hnil
        have hflat := flatten_splitLines (s ++ ['\n'])
        simp [hnil] at hflat
      obtain ⟨line, lines, hlines⟩ := List.exists_cons_of_ne_nil hne
      simp only [List.cons_append, splitLines, ih, hlines]
      split <;> rfl

/-- A text that is empty or ends with a line break has its own lines, whatever comes behind. -/
lemma splitLines_append {t₁ : String} (h : t₁ = "" ∨ ∃ t, t₁ = t ++ "\n") (t₂ : String) :
    splitLines (t₁ ++ t₂).toList = splitLines t₁.toList ++ splitLines t₂.toList := by
  rcases h with rfl | ⟨t, rfl⟩
  · simp [splitLines]
  · have hbreak := splitLines_break t.toList t₂.toList
    simpa using hbreak

/-! ### What a longer transcript writes -/

namespace Transcript

lemma stdout_after (outputs : List Output) (t : Transcript) :
    (t.after outputs).stdout = String.join (outputs.map Output.toOut) ++ t.stdout := by
  rw [stdout, after, List.map_append, String.join_append, stdout]

lemma stderr_after (outputs : List Output) (t : Transcript) (threshold : Option LogLevel) :
    (t.after outputs).stderr threshold =
      String.join (outputs.map (Output.toErr threshold)) ++ t.stderr threshold := by
  rw [stderr, after, List.map_append, String.join_append, stderr]

/-- The last prompt of a run, on a line of its own. -/
lemma stdout_lastPrompt (prompt : String) :
    stdout ⟨[.out prompt, .out "\n"], none⟩ = prompt ++ "\n" := by
  simp [stdout, Output.toOut, String.join_cons]

lemma stderr_lastPrompt (prompt : String) (threshold : Option LogLevel) :
    stderr ⟨[.out prompt, .out "\n"], none⟩ threshold = "" := by
  simp [stderr, Output.toErr, String.join_cons]

end Transcript

namespace Output

/-- Log lines go to the error output only. -/
@[simp] lemma join_toOut_log (lines : List LogLine) :
    String.join ((lines.map log).map toOut) = "" := by
  induction lines with
  | nil => rfl
  | cons line rest ih => simpa [toOut] using ih

/-- Log lines are not shown without a threshold. -/
@[simp] lemma join_toErr_log (lines : List LogLine) :
    String.join ((lines.map log).map (toErr none)) = "" := by
  induction lines with
  | nil => rfl
  | cons line rest ih => simpa [toErr] using ih

end Output

/-! ### Parts of a run -/

namespace Session

variable {s s' s'' : Session} {debug : Bool} {prompt : String} {line : List Char}
  {lines : List (List Char)} {outputs : List Output}

/-- The loop on a text in a session: the transcript, and the session that it leaves. -/
def runText (s : Session) (debug : Bool) (prompt text : String) : Transcript × Session :=
  s.runLines debug prompt (splitLines text.toList)

/-- An answer that does not end the loop is the one to a blank line, a value or a report. -/
lemma answersLine_of_answerLine (h : s.answerLine debug line = (outputs, s', none)) :
    AnswersLine debug s line outputs s' := by
  cases hline : isBlankLine line with
  | true =>
      rw [answerLine, if_pos hline] at h
      cases h
      exact .blank hline
  | false =>
      rw [answerLine, if_neg (by simp [hline])] at h
      cases houtcome : (s.respond debug (String.ofList line)).outcome with
      | ok text =>
          simp only [houtcome] at h
          cases h
          exact .value hline houtcome
      | error f =>
          cases hreported : f.isReported with
          | true =>
              obtain ⟨message, hmessage⟩ := exists_message_of_reported hreported
              simp only [houtcome, hreported, if_true, TinyLisp.report, hmessage] at h
              cases h
              exact .report hline houtcome hreported hmessage
          | false =>
              simp only [houtcome, hreported, Bool.false_eq_true, if_false] at h
              cases h

/-- **A run that raises nothing** answers every line. -/
theorem exists_answersLines (h : (s.runLines debug prompt lines).1.raised = none) :
    ∃ outputs s', AnswersLines debug prompt s lines outputs s' := by
  induction lines generalizing s with
  | nil => exact ⟨_, _, .nil⟩
  | cons line rest ih =>
      cases hanswer : s.answerLine debug line with
      | mk outputs after =>
          obtain ⟨s', ended⟩ := after
          cases ended with
          | some f =>
              rw [runLines, hanswer] at h
              cases h
          | none =>
              rw [runLines, hanswer] at h
              obtain ⟨outputs', s'', hrest⟩ := ih h
              exact ⟨_, _, .cons (answersLine_of_answerLine hanswer) hrest⟩

/-- **A run that raises** does not come to the lines behind it. -/
theorem runLines_append_of_raised {f : Fault}
    (h : (s.runLines debug prompt lines).1.raised = some f) (rest : List (List Char)) :
    s.runLines debug prompt (lines ++ rest) = s.runLines debug prompt lines := by
  induction lines generalizing s with
  | nil => cases h
  | cons line lines ih =>
      cases hanswer : s.answerLine debug line with
      | mk outputs after =>
          obtain ⟨s', ended⟩ := after
          rw [runLines, hanswer] at h
          rw [List.cons_append, runLines, runLines, hanswer]
          cases ended with
          | some g => rfl
          | none => simp only [ih h]

/-! ### What a line contributes -/

/-- What a line adds to the standard output and to the error output without the log: a blank line
adds nothing, a text adds the printed value of its last form to the first, and a fault its report
to the second. -/
inductive Contributes (debug : Bool) (s : Session) (line : List Char) :
    String × String → Session → Prop where
  | blank (hline : isBlankLine line = true) : Contributes debug s line ("", "") s
  | value {v text} (hline : isBlankLine line = false)
      (h : (s.eval debug (String.ofList line)).outcome = .ok v) (hprint : v.print = .ok text) :
    Contributes debug s line (text ++ "\n", "") (s.eval debug (String.ofList line)).session
  | report {f message} (hline : isBlankLine line = false)
      (h : (s.respond debug (String.ofList line)).outcome = .error f)
      (hreported : f.isReported = true) (hmessage : f.message? = some message) :
    Contributes debug s line ("", "error: " ++ message ++ "\n")
      (s.eval debug (String.ofList line)).session

/-- What some lines contribute, one after the other. -/
inductive Contribute (debug : Bool) :
    Session → List (List Char) → List (String × String) → Session → Prop where
  | nil {s : Session} : Contribute debug s [] [] s
  | cons {s s' s'' : Session} {line part rest parts} (hfirst : Contributes debug s line part s')
      (hrest : Contribute debug s' rest parts s'') :
    Contribute debug s (line :: rest) (part :: parts) s''

/-- A response leaves the session that the evaluation leaves. -/
@[simp] lemma respond_session (source : String) :
    (s.respond debug source).session = (s.eval debug source).session := rfl

/-- A response is the printed value of the last form. -/
lemma exists_print_of_respond {source text : String}
    (h : (s.respond debug source).outcome = .ok text) :
    ∃ v, (s.eval debug source).outcome = .ok v ∧ v.print = .ok text := by
  cases heval : (s.eval debug source).outcome with
  | error f => rw [respond_of_error heval] at h; cases h
  | ok v =>
      have hprint : printWithin s.room .displayDepth v = .ok text := by
        rw [← h, respond, heval]
        rfl
      refine ⟨v, rfl, ?_⟩
      unfold printWithin at hprint
      split at hprint
      · exact eq_ok_of_mapError_eq_ok hprint
      · cases hprint

/-- An answer to a line is its contribution, and its log. -/
lemma AnswersLine.contributes (h : AnswersLine debug s line outputs s') :
    Contributes debug s line (String.join (outputs.map Output.toOut),
      String.join (outputs.map (Output.toErr none))) s' := by
  cases h with
  | blank hline => exact .blank hline
  | value hline h =>
      obtain ⟨v, hv, hprint⟩ := exists_print_of_respond h
      simpa [-List.map_map, String.join_append, Output.toOut, Output.toErr] using
        Contributes.value hline hv hprint
  | report hline h hreported hmessage =>
      simpa [-List.map_map, String.join_append, Output.toOut, Output.toErr] using
        Contributes.report hline h hreported hmessage

/-- The answers to some lines are their contributions, each behind a prompt. -/
lemma AnswersLines.contribute (h : AnswersLines debug prompt s lines outputs s') :
    ∃ parts, Contribute debug s lines parts s' ∧
      String.join (outputs.map Output.toOut) = String.join (parts.map (prompt ++ ·.1)) ∧
      String.join (outputs.map (Output.toErr none)) = String.join (parts.map Prod.snd) := by
  induction h with
  | nil => exact ⟨[], .nil, rfl, rfl⟩
  | cons hfirst _ ih =>
      obtain ⟨parts, hparts, hout, herr⟩ := ih
      refine ⟨_, .cons hfirst.contributes hparts, ?_, ?_⟩
      · simp [String.join_append, String.join_cons, hout, Output.toOut, String.append_assoc]
      · simp [String.join_append, String.join_cons, herr, Output.toErr]

/-! ### Runs on texts -/

section

variable {t₁ text : String}

/-- A run that answers every line ends with one more prompt. -/
lemma AnswersLines.runText_eq
    (h : AnswersLines debug prompt s (splitLines text.toList) outputs s') :
    s.runText debug prompt text =
      (Transcript.after outputs ⟨[.out prompt, .out "\n"], none⟩, s') :=
  h.runLines_eq

/-- The run on a longer text goes on where the lines of the first part leave off. -/
lemma AnswersLines.runText_append
    (h : AnswersLines debug prompt s (splitLines t₁.toList) outputs s')
    (hends : t₁ = "" ∨ ∃ t, t₁ = t ++ "\n") (t₂ : String) :
    s.runText debug prompt (t₁ ++ t₂) =
      ((s'.runText debug prompt t₂).1.after outputs, (s'.runText debug prompt t₂).2) := by
  rw [runText, splitLines_append hends, h.runLines_append]
  rfl

lemma runText_append_of_raised {f : Fault} (h : (s.runText debug prompt t₁).1.raised = some f)
    (hends : t₁ = "" ∨ ∃ t, t₁ = t ++ "\n") (t₂ : String) :
    s.runText debug prompt (t₁ ++ t₂) = s.runText debug prompt t₁ := by
  rw [runText, splitLines_append hends]
  exact runLines_append_of_raised h _

/-- **A run that raises nothing** writes a prompt and a contribution for each line. -/
theorem exists_contribute_of_runText (h : (s.runText debug prompt text).1.raised = none) :
    ∃ parts, Contribute debug s (splitLines text.toList) parts (s.runText debug prompt text).2 ∧
      (s.runText debug prompt text).1.stdout =
        String.join (parts.map (prompt ++ ·.1)) ++ (prompt ++ "\n") ∧
      (s.runText debug prompt text).1.stderr none = String.join (parts.map Prod.snd) := by
  obtain ⟨outputs, s', hanswers⟩ := exists_answersLines h
  obtain ⟨parts, hparts, hout, herr⟩ := hanswers.contribute
  rw [hanswers.runText_eq]
  refine ⟨parts, hparts, ?_, ?_⟩
  · rw [Transcript.stdout_after, Transcript.stdout_lastPrompt, hout]
  · rw [Transcript.stderr_after, Transcript.stderr_lastPrompt, herr, String.append_empty]

end

end Session

open Session

/-- **Transcripts compose** line by line. Let a first text be empty or end with a line break. If
the loop raises nothing on it, then on the two texts together it writes what it writes on the
first, less the last prompt, and goes on as on the second in the session that the first leaves. If
it raises, then the second text changes nothing. And on any text on which it raises nothing, it
writes a prompt and one contribution for every line, and one prompt more. -/
theorem transcripts_compose (s : Session) (debug : Bool) (prompt : String) (t₁ t₂ : String)
    (h : t₁ = "" ∨ ∃ t, t₁ = t ++ "\n") :
    let first := s.runText debug prompt t₁
    let second := first.2.runText debug prompt t₂
    let joint := s.runText debug prompt (t₁ ++ t₂)
    (first.1.raised = none →
      (∃ body, first.1.stdout = body ++ (prompt ++ "\n") ∧
        joint.1.stdout = body ++ second.1.stdout) ∧
      (∀ threshold, joint.1.stderr threshold =
        first.1.stderr threshold ++ second.1.stderr threshold) ∧
      joint.1.raised = second.1.raised ∧ joint.2 = second.2) ∧
    (first.1.raised ≠ none → joint = first) ∧
    ∀ text, (s.runText debug prompt text).1.raised = none →
      ∃ parts, Contribute debug s (splitLines text.toList) parts (s.runText debug prompt text).2 ∧
        (s.runText debug prompt text).1.stdout =
          String.join (parts.map (prompt ++ ·.1)) ++ (prompt ++ "\n") ∧
        (s.runText debug prompt text).1.stderr none = String.join (parts.map Prod.snd) := by
  intro first second joint
  refine ⟨fun hraised => ?_, fun hraised => ?_, fun text => exists_contribute_of_runText⟩
  · -- the first text is answered to its end, and the second goes on from the session it left
    obtain ⟨outputs, s', hanswers⟩ := exists_answersLines hraised
    have hfirst : first = (Transcript.after outputs ⟨[.out prompt, .out "\n"], none⟩, s') :=
      hanswers.runText_eq
    have hjoint : joint = (second.1.after outputs, second.2) := by
      simp only [second, hfirst]
      exact hanswers.runText_append h t₂
    rw [hjoint, hfirst]
    refine ⟨⟨String.join (outputs.map Output.toOut), ?_, Transcript.stdout_after _ _⟩,
      fun threshold => ?_, rfl, rfl⟩
    · rw [Transcript.stdout_after, Transcript.stdout_lastPrompt]
    · rw [Transcript.stderr_after, Transcript.stderr_after, Transcript.stderr_lastPrompt,
        String.append_empty]
  · -- the first text stopped the run, so nothing of the second is read
    obtain ⟨f, hf⟩ := Option.ne_none_iff_exists'.mp hraised
    exact runText_append_of_raised hf h t₂

/-- A truth value on a line, and a text that cannot be read behind it. -/
theorem truth_value_then_stray_paren :
    let s : Session := ⟨initialStore, .ofSetting none, none⟩
    let second := s.runText false "mal> " ")"
    let joint := s.runText false "mal> " ("true\n" ++ ")")
    joint.1.stdout = "mal> true\n" ++ second.1.stdout ∧
      joint.1.stderr none = second.1.stderr none ∧ joint.1.raised = second.1.raised := by
  intro s second joint
  have htokens : Token.ofSource "true\n" = [⟨.atom, "true"⟩] := by cbv
  have hread : readAll "true\n" = .ok [.bool true] :=
    readAll_of_tokens htokens rfl (List.cons_ne_nil _ _)
  have hroom : s.HasRoomToRead "true\n" := rfl
  have heval : s.eval false "true\n" = ⟨.ok (.bool true), s, []⟩ := by
    rw [eval_of_readAll false hroom hread]
    rfl
  have hprint : printWithin none .displayDepth (.bool true) = .ok "true" := by cbv
  have hrespond : s.respond false "true\n" = ⟨.ok "true", s, []⟩ := by
    rw [respond, heval, ← hprint]
    rfl
  have hanswer : s.answerLine false ['t', 'r', 'u', 'e', '\n'] = ([.out "true\n"], s, none) := by
    have hblank : isBlankLine ['t', 'r', 'u', 'e', '\n'] = false := by cbv
    rw [answerLine, if_neg (by simp [hblank])]
    have htext : String.ofList ['t', 'r', 'u', 'e', '\n'] = "true\n" := rfl
    simp only [htext, hrespond]
    rfl
  have hlines : splitLines "true\n".toList = [['t', 'r', 'u', 'e', '\n']] := by cbv
  have hfirst : s.runText false "mal> " "true\n" =
      (⟨[.out "mal> ", .out "true\n", .out "mal> ", .out "\n"], none⟩, s) := by
    rw [runText, hlines, runLines, hanswer]
    rfl
  obtain ⟨hruns, -, -⟩ := transcripts_compose s false "mal> " "true\n" ")" (.inr ⟨"true", rfl⟩)
  rw [hfirst] at hruns
  obtain ⟨⟨body, hbody, hout⟩, herr, hraised, -⟩ := hruns rfl
  have hjoin : "mal> true\n" ++ ("mal> " ++ "\n") = body ++ ("mal> " ++ "\n") := hbody
  obtain rfl : "mal> true\n" = body := String.append_left_inj _ |>.mp hjoin
  exact ⟨hout, herr none, hraised⟩

end TinyLisp
