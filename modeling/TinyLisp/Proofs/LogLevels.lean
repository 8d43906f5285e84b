/-
The log level has no say in what a program does.

Where log lines of the lowest level are shown, every form is printed before it is
evaluated. A form that was read can always be printed, also an integer with as
many digits as can be read, so this changes nothing but the log: two runs on one
input that differ in their log level write the same results and the same reports
and end alike, as long as the host has room for both.

* `Output.isLog`, `Transcript.withoutLog`, `Transcript.reports`: what a run writes
  but for the log lines, and its reports.
* `Session.evalForms_debug_eq`, `Session.respond_debug_eq`: forms and texts.
* `Session.LacksRoom`, `Session.RunLacksRoom`, `RunExhausted`: lines, and runs with a
  line, that are not answered because the host has no room.
* `Session.runLines_debug_eq`: the lines of a run.
* `log_level_changes_log_only` (**the log level**).
-/
import TinyLisp.Proofs.ReplRuns
import TinyLisp.Proofs.Sequencing

namespace TinyLisp

/-! ### What is written but for the log -/

/-- Whether an output is a log line. -/
def Output.isLog : Output → Bool
  | log _ => true
  | _ => false

/-- Outputs without the log lines among them. -/
def Output.dropLog (outputs : List Output) : List Output :=
  outputs.filter fun output => !output.isLog

namespace Transcript

/-- A transcript without its log lines. -/
def withoutLog (t : Transcript) : Transcript :=
  { t with outputs := Output.dropLog t.outputs }

/-- The reports of a run, in order. -/
def reports (t : Transcript) : List String :=
  t.outputs.filterMap fun
    | .err text => some text
    | _ => none

end Transcript

namespace Output

@[simp] lemma dropLog_append (outputs outputs' : List Output) :
    dropLog (outputs ++ outputs') = dropLog outputs ++ dropLog outputs' :=
  List.filter_append _ _

/-- Nothing is left of log lines. -/
@[simp] lemma dropLog_map_log (lines : List LogLine) : dropLog (lines.map log) = [] := by
  simp [dropLog, isLog]

@[simp] lemma dropLog_out (text : String) (outputs : List Output) :
    dropLog (.out text :: outputs) = .out text :: dropLog outputs := rfl

end Output

namespace Transcript

variable {t t' : Transcript}

@[simp] lemma withoutLog_after (outputs : List Output) (t : Transcript) :
    (t.after outputs).withoutLog = t.withoutLog.after (Output.dropLog outputs) := by
  rw [withoutLog, after, Output.dropLog_append]
  rfl

lemma stdout_withoutLog (t : Transcript) : t.withoutLog.stdout = t.stdout := by
  obtain ⟨outputs, raised⟩ := t
  suffices h : String.join ((Output.dropLog outputs).map Output.toOut) =
      String.join (outputs.map Output.toOut) from h
  induction outputs with
  | nil => rfl
  | cons output rest ih => cases output <;> simp_all [Output.dropLog, Output.isLog, Output.toOut]

lemma raised_withoutLog (t : Transcript) : t.withoutLog.raised = t.raised := rfl

lemma reports_withoutLog (t : Transcript) : t.withoutLog.reports = t.reports := by
  rw [reports, reports, withoutLog, Output.dropLog, List.filterMap_filter]
  congr 1
  funext output
  cases output <;> rfl

end Transcript

/-! ### Texts -/

namespace Session

variable {s : Session} {debug debug' : Bool}

/-- Forms in order come to the same whether they are announced or not. -/
lemma evalForms_debug_eq {last : Value} {forms : List Value}
    (hforms : ∀ form ∈ forms, form.Readable)
    (h : ¬ (s.evalForms debug last forms).Exhausted)
    (h' : ¬ (s.evalForms debug' last forms).Exhausted) :
    (s.evalForms debug' last forms).outcome = (s.evalForms debug last forms).outcome ∧
      (s.evalForms debug' last forms).session = (s.evalForms debug last forms).session := by
  have hne {debug : Bool} (h : ¬ (s.evalForms debug last forms).Exhausted) :
      (s.evalForms debug last forms).outcome ≠ .error .stackDepth :=
    fun heq => h ⟨_, heq, rfl⟩
  obtain ⟨r, hr, hsession, houtcome⟩ := evaluates_each hforms (hne h) []
  obtain ⟨r', hr', hsession', houtcome'⟩ := evaluates_each hforms (hne h') []
  obtain rfl := hr'.unique hr
  exact ⟨houtcome'.trans houtcome.symm, hsession'.trans hsession.symm⟩

lemma eval_debug_eq {c : String} (h : ¬ (s.eval debug c).Exhausted)
    (h' : ¬ (s.eval debug' c).Exhausted) :
    (s.eval debug' c).outcome = (s.eval debug c).outcome ∧
      (s.eval debug' c).session = (s.eval debug c).session := by
  unfold eval at h h' ⊢
  cases hread : readWithin s.room c with
  | error f => exact ⟨rfl, rfl⟩
  | ok forms =>
      simp only [hread] at h h' ⊢
      exact evalForms_debug_eq (readAll_readable (readAll_of_readWithin hread)) h h'

/-- A text whose evaluation lacks room has no response but that. -/
lemma exhausted_respond {c : String} (h : (s.eval debug c).Exhausted) :
    ∃ f, (s.respond debug c).outcome = .error f ∧ f.isExhaustion = true := by
  obtain ⟨f, hf, hexhausted⟩ := h
  exact ⟨f, respond_of_error hf, hexhausted⟩

/-- **The response to a text** is the same at every log level. -/
theorem respond_debug_eq {c : String}
    (h : ¬ ∃ f, (s.respond debug c).outcome = .error f ∧ f.isExhaustion = true)
    (h' : ¬ ∃ f, (s.respond debug' c).outcome = .error f ∧ f.isExhaustion = true) :
    (s.respond debug' c).outcome = (s.respond debug c).outcome ∧
      (s.respond debug' c).session = (s.respond debug c).session := by
  obtain ⟨houtcome, hsession⟩ := eval_debug_eq (mt exhausted_respond h) (mt exhausted_respond h')
  exact ⟨congrArg (Except.bind · (printWithin s.room .displayDepth)) houtcome, hsession⟩

/-! ### Lines -/

/-- A line is not answered because the host has no room. -/
def LacksRoom (debug : Bool) (s : Session) (line : List Char) : Prop :=
  isBlankLine line = false ∧
    ∃ f, (s.respond debug (String.ofList line)).outcome = .error f ∧ f.isExhaustion = true

/-- Some line of a run is not answered because the host has no room. -/
inductive RunLacksRoom (debug : Bool) : Session → List (List Char) → Prop where
  | here {s line rest} (h : LacksRoom debug s line) : RunLacksRoom debug s (line :: rest)
  | later {s line rest outputs s'} (h : s.answerLine debug line = (outputs, s', none))
      (hrest : RunLacksRoom debug s' rest) : RunLacksRoom debug s (line :: rest)

lemma answerLine_debug_eq {line : List Char} (h : ¬ LacksRoom debug s line)
    (h' : ¬ LacksRoom debug' s line) :
    Output.dropLog (s.answerLine debug' line).1 = Output.dropLog (s.answerLine debug line).1 ∧
      (s.answerLine debug' line).2 = (s.answerLine debug line).2 := by
  cases hline : isBlankLine line with
  | true => simp [answerLine, hline]
  | false =>
      obtain ⟨houtcome, hsession⟩ :=
        respond_debug_eq (fun hf => h ⟨hline, hf⟩) fun hf => h' ⟨hline, hf⟩
      simp only [answerLine, hline, Bool.false_eq_true, if_false, houtcome, hsession]
      split
      · simp
      · split <;> simp

/-- **The lines of a run** are answered alike at every log level. -/
theorem runLines_debug_eq (prompt : String) {lines : List (List Char)}
    (h : ¬ RunLacksRoom debug s lines) (h' : ¬ RunLacksRoom debug' s lines) :
    (s.runLines debug' prompt lines).1.withoutLog =
      (s.runLines debug prompt lines).1.withoutLog := by
  induction lines generalizing s with
  | nil => rfl
  | cons line rest ih =>
      obtain ⟨houtputs, hrest⟩ :=
        answerLine_debug_eq (fun hline => h (.here hline)) fun hline => h' (.here hline)
      cases hanswer : s.answerLine debug line with
      | mk outputs after =>
          obtain ⟨s₁, ended⟩ := after
          cases hanswer' : s.answerLine debug' line with
          | mk outputs' after' =>
              rw [hanswer, hanswer'] at houtputs hrest
              obtain rfl : after' = (s₁, ended) := hrest
              cases ended with
              | some f =>
                  simp only [runLines, hanswer, hanswer']
                  simpa [Transcript.withoutLog] using houtputs
              | none =>
                  have hsame := ih (fun hlacks => h (.later hanswer hlacks))
                    fun hlacks => h' (.later hanswer' hlacks)
                  simp only [runLines, hanswer, hanswer', Transcript.withoutLog_after,
                    Output.dropLog_out, houtputs, hsame]

/-! ### Room without a bound -/

/-- Room without a bound does for every line. -/
lemma not_lacksRoom (hroom : s.room = none) (line : List Char) : ¬ LacksRoom debug s line := by
  rintro ⟨-, f, hf, hexhausted⟩
  set c := String.ofList line
  have hfits := hasRoomToRead_of_room_eq_none hroom c
  cases heval : (s.eval debug c).outcome with
  | error g =>
      obtain rfl := Except.error.inj ((respond_of_error heval).symm.trans hf)
      cases hread : readAll c with
      | error g =>
          rw [eval_of_readAll_eq_error debug hfits hread] at heval
          rw [← Except.error.inj heval] at hexhausted
          exact Bool.false_ne_true hexhausted
      | ok forms =>
          rw [eval_of_readAll debug hfits hread] at heval
          exact not_exhausted_evalForms hroom (readAll_readable hread) ⟨_, heval, hexhausted⟩
  | ok v =>
      have hprint := respond_of_ok hroom heval
      rw [hf] at hprint
      cases hshown : v.print with
      | ok text =>
          rw [hshown] at hprint
          cases hprint
      | error g =>
          rw [hshown] at hprint
          rw [Except.error.inj hprint] at hexhausted
          exact Bool.false_ne_true hexhausted

lemma answerLine_room (debug : Bool) (s : Session) (line : List Char) :
    (s.answerLine debug line).2.1.room = s.room := by
  have hhost := s.eval_sameHost debug (String.ofList line)
  unfold answerLine
  split
  · rfl
  · simp only
    split
    · exact hhost.room
    · split <;> exact hhost.room

/-- Room without a bound does for every run. -/
lemma not_runLacksRoom (hroom : s.room = none) (lines : List (List Char)) :
    ¬ RunLacksRoom debug s lines := by
  intro h
  induction h with
  | here h => exact not_lacksRoom hroom _ h
  | @later s line _ _ s' h _ ih =>
      refine ih ?_
      rw [← hroom, ← answerLine_room debug s line, h]

end Session

/-! ### Whole runs -/

open Session

/-- Some line of a whole run is not answered because the host has no room. -/
def RunExhausted (room : Room) (debug : Bool) (callDepth : Option String) (input : String) : Prop :=
  ∃ s, (openSession room callDepth).2 = .ok s ∧ RunLacksRoom debug s (splitLines input.toList)

/-- The loop in a new session writes the same at every log level but for the log. -/
lemma runRepl_debug_eq {room : Room} {debug debug' : Bool} {callDepth : Option String}
    {input : String} (prompt : String) (h : ¬ RunExhausted room debug callDepth input)
    (h' : ¬ RunExhausted room debug' callDepth input) :
    (runRepl room debug' prompt callDepth input).withoutLog =
      (runRepl room debug prompt callDepth input).withoutLog := by
  unfold runRepl
  cases hopen : openSession room callDepth with
  | mk opening started =>
      cases started with
      | error f => rfl
      | ok s =>
          have hs : (openSession room callDepth).2 = .ok s := by rw [hopen]
          have hlines := runLines_debug_eq prompt (fun hlacks => h ⟨s, hs, hlacks⟩)
            fun hlacks => h' ⟨s, hs, hlacks⟩
          simp only [Transcript.withoutLog_after, hlines]

/-- **The log level** changes nothing but the log. Two runs of the program on one input, with the
same prompt and the same limit on calls and with two log levels, write the same results and the
same reports and end with the same fault or with none, as long as in neither run a line goes
without an answer because the host has no room; with room without a bound that never happens. In
particular every form that was read can be printed, so it can be announced in the log. -/
theorem log_level_changes_log_only (room : Room) (prompt callDepth name name' : Option String)
    {level level' : LogLevel} (hlevel : Settings.level ⟨prompt, callDepth, name⟩ = .ok level)
    (hlevel' : Settings.level ⟨prompt, callDepth, name'⟩ = .ok level') (input : String) :
    let run := (runMain room ⟨prompt, callDepth, name⟩ input).1
    let run' := (runMain room ⟨prompt, callDepth, name'⟩ input).1
    (¬ RunExhausted room (level.shows .debug) callDepth input →
      ¬ RunExhausted room (level'.shows .debug) callDepth input →
      run'.stdout = run.stdout ∧ run'.reports = run.reports ∧ run'.raised = run.raised) ∧
    (room = none → ∀ debug, ¬ RunExhausted room debug callDepth input) ∧
    ∀ source forms, readAll source = .ok forms → ∀ form ∈ forms, ∃ text,
      form.print = .ok text ∧ ∀ s : Session, s.room = none →
        s.announce true form = .ok [⟨.debug, .session, "Evaluating " ++ text⟩] := by
  intro run run'
  -- the settings differ in the level only, so both runs are runs of one loop
  set promptText := Settings.promptText ⟨prompt, callDepth, none⟩
  have hrun : run = runRepl room (level.shows .debug) promptText callDepth input := by
    simp only [run, runMain, hlevel]
    rfl
  have hrun' : run' = runRepl room (level'.shows .debug) promptText callDepth input := by
    simp only [run', runMain, hlevel']
    rfl
  refine ⟨fun h h' => ?_, fun hroom debug => ?_, fun source forms hread form hform => ?_⟩
  · have hsame : run'.withoutLog = run.withoutLog := by
      rw [hrun, hrun']
      exact runRepl_debug_eq promptText h h'
    refine ⟨?_, ?_, ?_⟩
    · rw [← run'.stdout_withoutLog, hsame, run.stdout_withoutLog]
    · rw [← run'.reports_withoutLog, hsame, run.reports_withoutLog]
    · rw [← run'.raised_withoutLog, hsame, run.raised_withoutLog]
  · -- a session in a host without a bound never lacks room
    rintro ⟨s, hs, hlacks⟩
    obtain ⟨_, hroom', rfl⟩ := exists_of_map_eq_ok hs
    rw [hroom] at hroom'
    exact not_runLacksRoom (Except.ok.inj hroom').symm _ hlacks
  · -- a form of a text is readable, so announcing it cannot fail
    obtain ⟨text, hprint, -⟩ := readAll_print (readAll_readable hread form hform)
    refine ⟨text, hprint, fun s hroom => ?_⟩
    rw [announce, if_pos rfl, printWithin, hroom, Room.fits_none, if_pos rfl, hprint]
    rfl

/-- A run that shows every form in the log, and one that shows warnings only. -/
theorem every_form_in_the_log :
    let run := (runMain none ⟨none, none, none⟩ "(def! a 1)\n(a)\n").1
    let run' := (runMain none ⟨none, none, some "debug"⟩ "(def! a 1)\n(a)\n").1
    Settings.level ⟨none, none, none⟩ = .ok .warning ∧
      Settings.level ⟨none, none, some "debug"⟩ = .ok .debug ∧
      run'.stdout = run.stdout ∧ run'.reports = run.reports ∧ run'.raised = run.raised := by
  intro run run'
  have hlevel : Settings.level ⟨none, none, none⟩ = .ok .warning := rfl
  have hlevel' : Settings.level ⟨none, none, some "debug"⟩ = .ok .debug := rfl
  obtain ⟨hsame, hroom, -⟩ :=
    log_level_changes_log_only none none none none (some "debug") hlevel hlevel'
      "(def! a 1)\n(a)\n"
  exact ⟨hlevel, hlevel', hsame (hroom rfl _) (hroom rfl _)⟩

end TinyLisp
