/-
The interactive loop.

Every line of the input is answered in turn. A blank line gives nothing but the
next prompt; any other line gives the printed value of its last form or, when it
fails, a report, after which the loop goes on. A fault that is none of the
language ends the loop.

* `Output`, `Transcript`: what the loop writes, in order, and how it ends.
* `splitLines`: the lines of the input, each with its line end.
* `Session.answerLine`, `Session.runLines`: the answer to one line, and to all.
* `openSession`, `runRepl`, `runMain`: the session of a run, and a whole run
  without and with all of its settings.
-/
import TinyLisp.Session

namespace TinyLisp

/-! ### What a run writes -/

/-- Something that a run writes. -/
inductive Output where
  | out (text : String)
  | err (text : String)
  | log (line : LogLine)
  deriving DecidableEq

/-- What a run writes, in order, and the fault that ended it. -/
structure Transcript where
  outputs : List Output
  raised : Option Fault

namespace Output

/-- The text that goes to the standard output. -/
def toOut : Output → String
  | out text => text
  | _ => ""

/-- The text that goes to the error output when log lines are shown from a threshold on. -/
def toErr (threshold : Option LogLevel) : Output → String
  | err text => text
  | log line =>
    match threshold with
    | some threshold => if threshold.shows line.level then line.text ++ "\n" else ""
    | none => ""
  | out _ => ""

end Output

namespace Transcript

/-- The standard output of a run. -/
def stdout (t : Transcript) : String :=
  String.join (t.outputs.map Output.toOut)

/-- The error output of a run, with the log lines from a threshold on. -/
def stderr (t : Transcript) (threshold : Option LogLevel) : String :=
  String.join (t.outputs.map (Output.toErr threshold))

/-- A transcript after some outputs. -/
def after (outputs : List Output) (t : Transcript) : Transcript :=
  { t with outputs := outputs ++ t.outputs }

end Transcript

/-! ### Lines -/

/-- The lines of a text, each with its line end; the last one may have none. -/
def splitLines : List Char → List (List Char)
  | [] => []
  | c :: rest =>
    if c = '\n' then [c] :: splitLines rest
    else
      match splitLines rest with
      | [] => [[c]]
      | line :: lines => (c :: line) :: lines

/-- The lines of a text are the text. -/
theorem flatten_splitLines (s : List Char) : (splitLines s).flatten = s := by
  induction s with
  | nil => rfl
  | cons c rest ih =>
    rw [splitLines]
    split
    · simp [ih]
    · split
      · next h => rw [h] at ih; simp [← ih]
      · next h => rw [h] at ih; simp [← ih]

/-- Whether a line holds white space only. -/
def isBlankLine (line : List Char) : Bool :=
  (Text.strip line).isEmpty

/-! ### The loop -/

/-- The report of a fault, with the log line that comes before it. -/
def report (f : Fault) : List Output :=
  let message := f.message?.getD ""
  [.log ⟨.debug, .repl, f.kind.name ++ ": " ++ message⟩, .err ("error: " ++ message ++ "\n")]

/-- The answer to a line: what it writes, the session after it, and the fault that ends the loop
if there is one. -/
def Session.answerLine (s : Session) (debug : Bool) (line : List Char) :
    List Output × Session × Option Fault :=
  if isBlankLine line then ([], s, none)
  else
    let result := s.respond debug (String.ofList line)
    let log := result.log.map Output.log
    match result.outcome with
    | .ok text => (log ++ [.out (text ++ "\n")], result.session, none)
    | .error f =>
      if f.isReported then (log ++ report f, result.session, none)
      else (log, result.session, some f)

/-- The answers to all lines, each after a prompt, and one prompt more at the end. -/
def Session.runLines (s : Session) (debug : Bool) (prompt : String) :
    List (List Char) → Transcript × Session
  | [] => (⟨[.out prompt, .out "\n"], none⟩, s)
  | line :: rest =>
    match s.answerLine debug line with
    | (outputs, s, some f) => (⟨.out prompt :: outputs, some f⟩, s)
    | (outputs, s, none) =>
      let (t, s) := runLines s debug prompt rest
      (t.after (.out prompt :: outputs), s)

/-! ### Whole runs -/

/-- A new session under a setting of the limit, after the log lines of looking that limit up. -/
def openSession (room : Room) (callDepth : Option String) : List Output × Except Fault Session :=
  let guard := CallGuard.ofSetting callDepth
  ((guard.log 1).map Output.log, Session.start guard room)

/-- Runs the loop on an input in a new session. -/
def runRepl (room : Room) (debug : Bool) (prompt : String) (callDepth : Option String)
    (input : String) : Transcript :=
  match openSession room callDepth with
  | (opening, .error f) => ⟨opening, some f⟩
  | (opening, .ok s) => (s.runLines debug prompt (splitLines input.toList)).1.after opening

/-- Runs the program on an input: the transcript, and the level from which log lines are shown. -/
def runMain (room : Room) (settings : Settings) (input : String) :
    Transcript × Option LogLevel :=
  match settings.level with
  | .error f => (⟨[], some f⟩, none)
  | .ok level =>
    (runRepl room (level.shows .debug) settings.promptText settings.callDepth input, some level)

end TinyLisp
