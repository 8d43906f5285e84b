/-
Runs of the interactive loop.

The loop answers a line with a value, with the report of a fault, or with nothing
if the line is blank, and goes on. It goes on after every fault of the language;
with room without a bound the only others are those of the limit on the digits of
an integer: a line may hold an integer over the limit, a fault inside its
evaluation may show one, or its value may contain one. So a run answers all of
its lines and ends with the input, or it ends at the first line of that sort.

* `Session.Boundless`: the states of a session whose host has no bound.
* `Session.Refusal`: the faults of the digit limit that a text comes to.
* `Session.Boundless.respond_refusal_iff`: they are the faults of a response that
  are none of the language.
* `Session.AnswersLine`, `Session.AnswersLines`: the answers that let the loop go
  on, to one line and to some lines.
* `Session.StopsAt`: the first line at which the loop ends.
* `repl_ends_with_input` (**the end of a run**).
* `runRepl_of_long_numeral`: an integer over the digit limit ends a run.
-/
import TinyLisp.Proofs.LanguageFaults
import TinyLisp.Proofs.Splitting
import TinyLisp.Repl

namespace TinyLisp

namespace Session

variable {s : Session} {debug : Bool} {source : String} {f : Fault}

/-! ### States with room without a bound -/

/-- A state that a session on texts comes to when its host has no bound. -/
structure Boundless (s : Session) : Prop where
  room : s.room = none
  obeys : s.Obeys .computed

namespace Boundless

lemma start (setting : Option String) :
    Boundless ⟨initialStore, .ofSetting setting, none⟩ where
  room := rfl
  obeys := start_obeys Discipline.computed_forTexts
    (rfl : Session.start (.ofSetting setting) none = .ok _)

lemma eval (h : s.Boundless) (debug : Bool) (source : String) :
    (s.eval debug source).session.Boundless where
  room := (s.eval_sameHost debug source).room.trans h.room
  obeys := (eval_obeys Discipline.computed_forTexts h.obeys debug source).session

lemma evalForms (h : s.Boundless) (debug : Bool) {forms : List Value}
    (hforms : ∀ form ∈ forms, form.Readable) :
    (s.evalForms debug .nil forms).session.Boundless where
  room := (s.evalForms_sameHost debug .nil forms).room.trans h.room
  obeys := (evalForms_obeys Discipline.computed_forTexts h.obeys debug hforms
    (Discipline.computed.value_nil _)).session

lemma hasRoomToRead (h : s.Boundless) (source : String) : s.HasRoomToRead source :=
  hasRoomToRead_of_room_eq_none h.room source

/-- A readable form is announced, and evaluated. -/
lemma evalForm_outcome (h : s.Boundless) (debug : Bool) {form : Value} (hform : form.Readable) :
    (s.evalForm debug form).outcome =
      Outcome.result (runIn s.guard.limit none global form ⟨s.store, s.guard.depth, []⟩) := by
  obtain ⟨store, guard, room⟩ := s
  obtain rfl : room = none := h.room
  obtain ⟨lines, hlines⟩ :=
    (announce_cases ⟨store, guard, none⟩ debug hform).resolve_right fun h => h.2 rfl
  exact (evalForm_of_announce ⟨store, guard, none⟩ debug hlines rfl).1

/-- A form fails with a fault that is none of the language exactly when a fault inside it cannot be
worded. -/
lemma evalForm_refusal_iff (h : s.Boundless) (debug : Bool) {form : Value}
    (hform : form.Readable) :
    (s.evalForm debug form).outcome = .error f ∧ f.isReported = false ↔
      f = .display .longInteger ∧ LacksWordingInside s.guard.limit
        (.expr none global form, ⟨s.store, s.guard.depth, []⟩) := by
  have hcases := runIn_cases_of_computed s.guard.limit hform
    (m := ⟨s.store, s.guard.depth, []⟩) h.obeys.store
  rw [h.evalForm_outcome debug hform]
  refine ⟨fun ⟨hf, hnot⟩ => ?_, fun ⟨hf, hlacks⟩ => ?_⟩
  · rcases hcases with ⟨-, ⟨w, hw⟩ | ⟨g, hg, hkind⟩⟩ | ⟨hlacks, hbad⟩
    · nomatch hw.symm.trans hf
    · obtain rfl := Except.error.inj (hg.symm.trans hf)
      rw [Fault.isReported_of_mem_ofPrograms hkind] at hnot
      nomatch hnot
    · exact ⟨Except.error.inj (hf.symm.trans hbad), hlacks⟩
  · obtain rfl := hf
    rcases hcases with ⟨hworded, -⟩ | ⟨-, hbad⟩
    · exact absurd hlacks hworded
    · exact ⟨hbad, rfl⟩

lemma computed_of_eval (h : s.Boundless) {v : Value}
    (hv : (s.eval debug source).outcome = .ok v) : v.Computed :=
  (eval_obeys Discipline.computed_forTexts h.obeys debug source).value v hv

end Boundless

/-! ### The faults of a response -/

/-- The faults of the digit limit that a text comes to: it holds an integer over the limit, or a
fault inside a form of it shows one, or its value contains one. -/
inductive Refusal (s : Session) (debug : Bool) (source : String) : Fault → Prop where
  | numeral {digits} (h : readAll source = .error (.longNumeral digits)) :
    Refusal s debug source (.read (.longNumeral digits))
  | wording {before form after v} (hread : readAll source = .ok (before ++ form :: after))
      (hbefore : (s.evalForms debug .nil before).outcome = .ok v)
      (hlacks : let s' := (s.evalForms debug .nil before).session
        LacksWordingInside s'.guard.limit
          (.expr none global form, ⟨s'.store, s'.guard.depth, []⟩)) :
    Refusal s debug source (.display .longInteger)
  | value {v} (h : (s.eval debug source).outcome = .ok v)
      (hnot : ¬ v.AllLeaves Value.IsShown) : Refusal s debug source (.display .longInteger)

lemma respond_of_error (h : (s.eval debug source).outcome = .error f) :
    (s.respond debug source).outcome = .error f := by
  simp only [respond, h]
  rfl

/-- With room without a bound a response is the printed value, if that can be written. -/
lemma respond_of_ok (hroom : s.room = none) {v : Value}
    (h : (s.eval debug source).outcome = .ok v) :
    (s.respond debug source).outcome = v.print.mapError .display := by
  simp only [respond, h, hroom]
  rfl

/-- A fault of reading that is none of the language is an integer over the limit. -/
lemma longNumeral_of_not_reported {f : ReadFault} (h : (Fault.read f).isReported = false) :
    ∃ digits, f = .longNumeral digits := by
  cases f with
  | longNumeral digits => exact ⟨digits, rfl⟩
  | noForm | unclosedList | strayClose | unclosedString _ => nomatch h

/-- A value cannot be printed exactly when an integer in it cannot be written. -/
lemma Boundless.respond_error_iff_of_ok (hs : s.Boundless) {v : Value}
    (hv : (s.eval debug source).outcome = .ok v) :
    (s.respond debug source).outcome = .error f ↔
      f = .display .longInteger ∧ ¬ v.AllLeaves Value.IsShown := by
  obtain ⟨hprinted, hrefused⟩ := (hs.computed_of_eval hv).print_cases
  rw [respond_of_ok hs.room hv]
  by_cases hshown : v.AllLeaves Value.IsShown
  · obtain ⟨text, htext⟩ := hprinted hshown
    rw [htext]
    exact iff_of_false nofun fun h => h.2 hshown
  · rw [hrefused hshown]
    exact ⟨fun h => ⟨(Except.error.inj h).symm, hshown⟩, fun h => congrArg Except.error h.1.symm⟩

/-- Some forms that are read fail as a form among them does. -/
lemma Boundless.eval_error_iff (hs : s.Boundless) {forms : List Value}
    (hread : readAll source = .ok forms) :
    (s.eval debug source).outcome = .error f ↔
      ∃ before form after v, forms = before ++ form :: after ∧
        (s.evalForms debug .nil before).outcome = .ok v ∧
        (s.evalForms debug .nil before).session.Boundless ∧ form.Readable ∧
        ((s.evalForms debug .nil before).session.evalForm debug form).outcome = .error f := by
  have hforms := readAll_readable hread
  rw [eval_of_readAll debug (hs.hasRoomToRead source) hread, evalForms_error_iff]
  refine ⟨?_, ?_⟩
  · rintro ⟨before, form, after, v, rfl, hbefore, hform⟩
    have hs' := hs.evalForms debug fun e he => hforms e (List.mem_append_left (form :: after) he)
    exact ⟨before, form, after, v, rfl, hbefore, hs', hforms form (by simp), hform⟩
  · rintro ⟨before, form, after, v, hsplit, hbefore, -, -, hform⟩
    exact ⟨before, form, after, v, hsplit, hbefore, hform⟩

/-- **The faults of a response** that are none of the language are those of the digit limit. -/
theorem Boundless.respond_refusal_iff (hs : s.Boundless) :
    (s.respond debug source).outcome = .error f ∧ f.isReported = false ↔
      s.Refusal debug source f := by
  refine ⟨fun ⟨hf, hnot⟩ => ?_, fun h => ?_⟩
  · -- the fault is one of reading, of a form, or of printing the value, in this order
    cases hread : readAll source with
    | error g =>
        have heval := eval_of_readAll_eq_error debug (hs.hasRoomToRead source) hread
        have hrespond : (s.respond debug source).outcome = .error (.read g) :=
          respond_of_error (by rw [heval])
        obtain rfl := Except.error.inj (hrespond.symm.trans hf)
        obtain ⟨digits, rfl⟩ := longNumeral_of_not_reported hnot
        exact .numeral hread
    | ok forms =>
        cases hvalue : (s.eval debug source).outcome with
        | error g =>
            obtain rfl := Except.error.inj ((respond_of_error hvalue).symm.trans hf)
            obtain ⟨before, form, after, v, rfl, hbefore, hs', hreadable, hform⟩ :=
              (hs.eval_error_iff hread).mp hvalue
            obtain ⟨rfl, hlacks⟩ := (hs'.evalForm_refusal_iff debug hreadable).mp ⟨hform, hnot⟩
            exact .wording hread hbefore hlacks
        | ok v =>
            obtain ⟨rfl, hshown⟩ := (hs.respond_error_iff_of_ok hvalue).mp hf
            exact .value hvalue hshown
  · cases h with
    | numeral hread =>
        have heval := eval_of_readAll_eq_error debug (hs.hasRoomToRead source) hread
        exact ⟨respond_of_error (by rw [heval]), rfl⟩
    | @wording before form after v hread hbefore hlacks =>
        have hforms := readAll_readable hread
        have hs' := hs.evalForms debug fun e he =>
          hforms e (List.mem_append_left (form :: after) he)
        have hreadable : form.Readable := hforms form (by simp)
        obtain ⟨hform, hnot⟩ := (hs'.evalForm_refusal_iff debug hreadable).mpr ⟨rfl, hlacks⟩
        refine ⟨respond_of_error ((hs.eval_error_iff hread).mpr ?_), hnot⟩
        exact ⟨before, form, after, v, rfl, hbefore, hs', hreadable, hform⟩
    | value h hshown => exact ⟨(hs.respond_error_iff_of_ok h).mpr ⟨rfl, hshown⟩, rfl⟩

/-! ### Lines that are answered -/

/-- The answers to a line that let the loop go on: a blank line gives nothing, a value is printed,
and a fault of the language is reported. -/
inductive AnswersLine (debug : Bool) (s : Session) (line : List Char) :
    List Output → Session → Prop where
  | blank (hline : isBlankLine line = true) : AnswersLine debug s line [] s
  | value {text} (hline : isBlankLine line = false)
      (h : (s.respond debug (String.ofList line)).outcome = .ok text) :
    AnswersLine debug s line
      ((s.respond debug (String.ofList line)).log.map Output.log ++ [.out (text ++ "\n")])
      (s.respond debug (String.ofList line)).session
  | report {f message} (hline : isBlankLine line = false)
      (h : (s.respond debug (String.ofList line)).outcome = .error f)
      (hreported : f.isReported = true) (hmessage : f.message? = some message) :
    AnswersLine debug s line
      ((s.respond debug (String.ofList line)).log.map Output.log ++
        [.log ⟨.debug, .repl, f.kind.name ++ ": " ++ message⟩,
          .err ("error: " ++ message ++ "\n")])
      (s.respond debug (String.ofList line)).session

/-- The answers to some lines, each after a prompt. -/
inductive AnswersLines (debug : Bool) (prompt : String) :
    Session → List (List Char) → List Output → Session → Prop where
  | nil {s : Session} : AnswersLines debug prompt s [] [] s
  | cons {s s' s'' : Session} {line outputs rest outputs'}
      (hfirst : AnswersLine debug s line outputs s')
      (hrest : AnswersLines debug prompt s' rest outputs' s'') :
    AnswersLines debug prompt s (line :: rest) (.out prompt :: outputs ++ outputs') s''

/-- The first line whose response is a fault of the digit limit, with what is written before it. -/
inductive StopsAt (debug : Bool) (prompt : String) :
    Session → List (List Char) → List Output → Fault → Prop where
  | here {s : Session} {line rest} {f : Fault} (hline : isBlankLine line = false)
      (h : s.Refusal debug (String.ofList line) f) :
    StopsAt debug prompt s (line :: rest)
      (.out prompt :: (s.respond debug (String.ofList line)).log.map Output.log) f
  | later {s s' : Session} {line outputs rest outputs'} {f : Fault}
      (hfirst : AnswersLine debug s line outputs s')
      (hrest : StopsAt debug prompt s' rest outputs' f) :
    StopsAt debug prompt s (line :: rest) (.out prompt :: outputs ++ outputs') f

section

variable {prompt : String} {line : List Char} {lines : List (List Char)} {outputs : List Output}
  {s' : Session}

lemma AnswersLine.answerLine_eq (h : AnswersLine debug s line outputs s') :
    s.answerLine debug line = (outputs, s', none) := by
  cases h with
  | blank hline => rw [answerLine, if_pos hline]
  | value hline h =>
      rw [answerLine, if_neg (by simp [hline])]
      simp only [h]
  | report hline h hreported hmessage =>
      rw [answerLine, if_neg (by simp [hline])]
      simp only [h, if_pos hreported, TinyLisp.report, hmessage, Option.getD_some]

/-- A line that is answered leaves a state of the same sort. -/
lemma AnswersLine.boundless (h : AnswersLine debug s line outputs s') (hs : s.Boundless) :
    s'.Boundless := by
  cases h with
  | blank => exact hs
  | value | report => exact hs.eval debug _

/-- A run goes through the lines that are answered, and on to the lines behind them. -/
lemma AnswersLines.runLines_append (h : AnswersLines debug prompt s lines outputs s')
    (rest : List (List Char)) :
    s.runLines debug prompt (lines ++ rest) =
      ((s'.runLines debug prompt rest).1.after outputs, (s'.runLines debug prompt rest).2) := by
  induction h with
  | nil => rfl
  | cons hfirst _ ih =>
      rw [List.cons_append, runLines, hfirst.answerLine_eq]
      simp only [ih, Transcript.after, List.append_assoc]

/-- A run whose lines are answered ends with one more prompt. -/
lemma AnswersLines.runLines_eq (h : AnswersLines debug prompt s lines outputs s') :
    s.runLines debug prompt lines = (⟨outputs ++ [.out prompt, .out "\n"], none⟩, s') := by
  have hrun := h.runLines_append []
  rwa [List.append_nil] at hrun

/-- A run ends at a line whose response is a fault of the digit limit. -/
lemma StopsAt.runLines_eq (h : StopsAt debug prompt s lines outputs f) (hs : s.Boundless) :
    (s.runLines debug prompt lines).1 = ⟨outputs, some f⟩ := by
  induction h with
  | here hline h =>
      obtain ⟨hf, hnot⟩ := hs.respond_refusal_iff.mpr h
      rw [runLines, answerLine, if_neg (by simp [hline])]
      simp only [hf, hnot, Bool.false_eq_true, if_false]
  | later hfirst _ ih =>
      rw [runLines, hfirst.answerLine_eq]
      simp only [ih (hfirst.boundless hs), Transcript.after]

/-- A fault of the language has a wording. -/
lemma exists_message_of_reported (h : f.isReported = true) :
    ∃ message, f.message? = some message := by
  cases f with
  | roomSetting => nomatch h
  | _ => exact ⟨_, rfl⟩

/-- A line is answered, or its response is a fault of the digit limit. -/
lemma Boundless.answersLine_or (hs : s.Boundless) (debug : Bool) (line : List Char) :
    (∃ outputs s', AnswersLine debug s line outputs s') ∨
      (isBlankLine line = false ∧ ∃ f, s.Refusal debug (String.ofList line) f) := by
  cases hline : isBlankLine line with
  | true => exact .inl ⟨_, _, .blank hline⟩
  | false =>
      cases h : (s.respond debug (String.ofList line)).outcome with
      | ok text => exact .inl ⟨_, _, .value hline h⟩
      | error f =>
          cases hreported : f.isReported with
          | true =>
              obtain ⟨message, hmessage⟩ := exists_message_of_reported hreported
              exact .inl ⟨_, _, .report hline h hreported hmessage⟩
          | false => exact .inr ⟨rfl, f, hs.respond_refusal_iff.mp ⟨h, hreported⟩⟩

lemma Boundless.answersLines_or (hs : s.Boundless) (debug : Bool) (prompt : String)
    (lines : List (List Char)) :
    (∃ outputs s', AnswersLines debug prompt s lines outputs s') ∨
      ∃ outputs f, StopsAt debug prompt s lines outputs f := by
  induction lines generalizing s with
  | nil => exact .inl ⟨_, _, .nil⟩
  | cons line rest ih =>
      rcases hs.answersLine_or debug line with ⟨_, _, hfirst⟩ | ⟨hline, f, hrefusal⟩
      · rcases ih (hfirst.boundless hs) with ⟨_, _, hrest⟩ | ⟨_, f, hrest⟩
        · exact .inl ⟨_, _, .cons hfirst hrest⟩
        · exact .inr ⟨_, f, .later hfirst hrest⟩
      · exact .inr ⟨_, f, .here hline hrefusal⟩

end

end Session

/-! ### Whole runs -/

open Session

/-- **The end of a run.** With room without a bound the loop never ends before the input unless the
response to a line is a fault of the digit limit. Without such a line every line is answered, a
fault by its report and the lines behind it, and one more prompt ends the run; else the run ends
with that fault at the first such line, after the answers to the lines before it. -/
theorem repl_ends_with_input (debug : Bool) (prompt : String) (setting : Option String)
    (input : String) :
    let s : Session := ⟨initialStore, .ofSetting setting, none⟩
    let opening := ((CallGuard.ofSetting setting).log 1).map Output.log
    let lines := splitLines input.toList
    let run := runRepl none debug prompt setting input
    (run.raised = none ↔ ∀ outputs f, ¬ StopsAt debug prompt s lines outputs f) ∧
    (run.raised = none → ∃ outputs s', AnswersLines debug prompt s lines outputs s' ∧
      run.outputs = opening ++ (outputs ++ [.out prompt, .out "\n"])) ∧
    ∀ outputs f, StopsAt debug prompt s lines outputs f →
      run.outputs = opening ++ outputs ∧ run.raised = some f := by
  intro s opening lines run
  have hs : s.Boundless := .start setting
  have hrun : run = (s.runLines debug prompt lines).1.after opening := rfl
  have hstops {outputs : List Output} {f : Fault}
      (h : StopsAt debug prompt s lines outputs f) : run = ⟨opening ++ outputs, some f⟩ := by
    rw [hrun, h.runLines_eq hs]
    rfl
  -- either every line is answered, or one of them stops the run
  rcases hs.answersLines_or debug prompt lines with ⟨outputs, s', hanswers⟩ | ⟨outputs, f, hstop⟩
  · have hends : run = ⟨opening ++ (outputs ++ [.out prompt, .out "\n"]), none⟩ := by
      rw [hrun, hanswers.runLines_eq]
      rfl
    have hnever : ∀ outputs f, ¬ StopsAt debug prompt s lines outputs f := fun _ _ h =>
      nomatch congrArg Transcript.raised (hends.symm.trans (hstops h))
    refine ⟨iff_of_true (by rw [hends]) hnever,
      fun _ => ⟨outputs, s', hanswers, by rw [hends]⟩, ?_⟩
    exact fun outputs f h => absurd h (hnever outputs f)
  · have hraised : run.raised ≠ none := by
      rw [hstops hstop]
      exact Option.some_ne_none f
    refine ⟨iff_of_false hraised fun hnever => hnever outputs f hstop,
      fun h => absurd h hraised, ?_⟩
    exact fun outputs f h => ⟨by rw [hstops h], by rw [hstops h]⟩

/-! ### An integer over the digit limit -/

/-- A line ends at its line break. -/
lemma splitLines_append_break {line : List Char} (h : '\n' ∉ line) (rest : List Char) :
    splitLines (line ++ '\n' :: rest) = (line ++ ['\n']) :: splitLines rest := by
  induction line with
  | nil => simp [splitLines]
  | cons c line ih =>
      rw [List.mem_cons, not_or] at h
      rw [List.cons_append, splitLines, if_neg (Ne.symm h.1), ih h.2]
      rfl

section

variable {digits : List Char}

lemma numeralDigits_of_isDigit (h : ∀ c ∈ digits, c.isDigit = true) :
    numeralDigits digits = digits := by
  unfold numeralDigits
  split
  · nomatch h '-' List.mem_cons_self
  · rfl

lemma isBlankLine_of_isDigit (hne : digits ≠ []) (h : ∀ c ∈ digits, c.isDigit = true)
    (rest : List Char) : isBlankLine (digits ++ rest) = false := by
  obtain ⟨c, digits, rfl⟩ := List.exists_cons_of_ne_nil hne
  have hatom := isAtomChar_of_isDigit (h c List.mem_cons_self)
  rw [isBlankLine, List.isEmpty_eq_false_iff, Ne, Text.strip_eq_nil_iff]
  intro hblank
  have hc : Text.isBlank c = true := hblank c List.mem_cons_self
  simp [Token.isAtomChar, Token.isSeparator, hc] at hatom

/-- A line of digits over the limit cannot be read. -/
lemma readAll_long_numeral (hlong : Text.digitLimit < digits.length)
    (h : ∀ c ∈ digits, c.isDigit = true) :
    readAll (String.ofList (digits ++ ['\n'])) = .error (.longNumeral digits.length) := by
  have hne : digits ≠ [] := List.ne_nil_of_length_pos (Nat.zero_lt_of_lt hlong)
  have hatom : IsAtom digits := ⟨hne, fun c hc => isAtomChar_of_isDigit (h c hc)⟩
  have hnumeral : isNumeral (String.ofList digits).toList = true := by
    rw [String.toList_ofList, isNumeral, numeralDigits_of_isDigit h]
    simpa [hne] using h
  have hread : readAtom (String.ofList digits) = .error (.longNumeral digits.length) := by
    have hlength : (numeralDigits (String.ofList digits).toList).length = digits.length := by
      rw [String.toList_ofList, numeralDigits_of_isDigit h]
    rw [readAtom_long hnumeral (hlength.symm ▸ hlong), hlength]
  have hstep : step [] ⟨.atom, String.ofList digits⟩ = .failed (.longNumeral digits.length) := by
    simp only [step, hread]
  have hpass : readEvery [] (Token.ofSource (String.ofList (digits ++ ['\n']))) =
      ([], some (.longNumeral digits.length)) := by
    rw [Token.ofSource, String.toList_ofList,
      Token.tokenize_of_next? (Token.next?_atom hatom (Token.boundary_cons rfl [])),
      readEvery_failed hstep]
  exact readAll_eq_error hpass

/-- The loop ends at such a line, with nothing written but the prompt. -/
lemma stopsAt_long_numeral {s : Session} (hs : s.Boundless) (debug : Bool) (prompt : String)
    (hlong : Text.digitLimit < digits.length) (h : ∀ c ∈ digits, c.isDigit = true)
    (rest : List Char) :
    StopsAt debug prompt s (splitLines (digits ++ '\n' :: rest)) [.out prompt]
      (.read (.longNumeral digits.length)) := by
  have hne : digits ≠ [] := List.ne_nil_of_length_pos (Nat.zero_lt_of_lt hlong)
  have hbreak : '\n' ∉ digits := fun hmem => nomatch h '\n' hmem
  have hread := readAll_long_numeral hlong h
  have heval := eval_of_readAll_eq_error debug (hs.hasRoomToRead _) hread
  have hlog : (s.respond debug (String.ofList (digits ++ ['\n']))).log = [] := by
    rw [respond, heval]
  have hstop : StopsAt debug prompt s ((digits ++ ['\n']) :: splitLines rest) _
      (.read (.longNumeral digits.length)) :=
    .here (isBlankLine_of_isDigit hne h ['\n']) (.numeral hread)
  rw [hlog] at hstop
  rw [splitLines_append_break hbreak]
  exact hstop

/-- **An integer over the digit limit** on the first line ends a run before the second line. -/
theorem runRepl_of_long_numeral (debug : Bool) (prompt : String) (setting : Option String)
    (hlong : Text.digitLimit < digits.length) (h : ∀ c ∈ digits, c.isDigit = true)
    (rest : List Char) :
    runRepl none debug prompt setting (String.ofList (digits ++ '\n' :: rest)) =
      ⟨((CallGuard.ofSetting setting).log 1).map Output.log ++ [.out prompt],
        some (.read (.longNumeral digits.length))⟩ := by
  have hs : Boundless ⟨initialStore, .ofSetting setting, none⟩ := .start setting
  have hrun := (stopsAt_long_numeral hs debug prompt hlong h rest).runLines_eq hs
  rw [← String.toList_ofList (l := digits ++ '\n' :: rest)] at hrun
  exact congrArg (Transcript.after (((CallGuard.ofSetting setting).log 1).map Output.log)) hrun

end

/-- A line of 4301 digits ends a run with the default settings, and the line behind it is not
answered. -/
theorem long_numeral_ends_run :
    let input := String.ofList (List.replicate 4301 '1' ++ '\n' :: ['2', '\n'])
    runRepl none false "mal> " none input =
        ⟨[.out "mal> "], some (.read (.longNumeral 4301))⟩ ∧
      Fault.isReported (.read (.longNumeral 4301)) = false := by
  have hlength : (List.replicate 4301 '1').length = 4301 := List.length_replicate
  have hlong : Text.digitLimit < (List.replicate 4301 '1').length := by
    rw [hlength]
    decide
  have hdigits : ∀ c ∈ List.replicate 4301 '1', c.isDigit = true := fun c hc => by
    rw [List.eq_of_mem_replicate hc]
    rfl
  have hrun := runRepl_of_long_numeral false "mal> " none hlong hdigits ['2', '\n']
  rw [hlength] at hrun
  exact ⟨hrun, rfl⟩

end TinyLisp
