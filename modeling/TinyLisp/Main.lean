/-
The program.

The interactive loop on the terminal: the settings come from the environment of
the process, and each line is answered as soon as it is read.

* `main`: the program.
-/
import TinyLisp.Repl

namespace TinyLisp.Terminal

/-- Writes one output where it belongs. -/
def write (level : LogLevel) (output : Output) : IO Unit := do
  IO.print output.toOut
  IO.eprint (output.toErr (some level))
  (← IO.getStdout).flush

/-- Reports the fault that ends the program. -/
def fail (f : Fault) : IO UInt32 := do
  match f.message? with
  | some message => IO.eprintln (f.kind.name ++ ": " ++ message)
  | none => IO.eprintln f.kind.name
  return 1

/-- Answers line after line to the end of the input. -/
partial def loop (level : LogLevel) (prompt : String) (s : Session) : IO UInt32 := do
  write level (.out prompt)
  let line ← (← IO.getStdin).getLine
  if line.isEmpty then
    write level (.out "\n")
    return 0
  let (outputs, s, ended) := s.answerLine (level.shows .debug) line.toList
  outputs.forM (write level)
  match ended with
  | some f => fail f
  | none => loop level prompt s

/-- Runs the program under some settings. -/
def run (settings : Settings) : IO UInt32 := do
  match settings.level with
  | .error f => fail f
  | .ok level =>
    let (opening, started) := openSession Session.leastRoom settings.callDepth
    opening.forM (write level)
    match started with
    | .error f => fail f
    | .ok s => loop level settings.promptText s

end TinyLisp.Terminal

/-- Runs the program under the settings of its process. -/
def main : IO UInt32 := do
  TinyLisp.Terminal.run
    ⟨← IO.getEnv "MAL_PROMPT", ← IO.getEnv "MAL_MAX_CALL_DEPTH", ← IO.getEnv "MAL_LOG_LEVEL"⟩
