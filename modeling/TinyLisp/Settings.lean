/-
Settings of a run.

Three settings come as texts that may be absent: the prompt, the limit on nested
calls and the level of the log lines that are shown.

* `Settings`: the texts of the settings.
* `Settings.promptText`, `Settings.levelName`, `Settings.level`: the prompt, the
  name of the log level in upper case, and the log level.
* `CallGuard.log`: the log line that looking up the limit gives.
-/
import TinyLisp.CallGuard
import TinyLisp.Log
import TinyLisp.Text.UpperCase

namespace TinyLisp

/-- The texts of the settings. -/
structure Settings where
  prompt : Option String
  callDepth : Option String
  logLevel : Option String

namespace Settings

/-- The prompt of the interactive loop. -/
def promptText (s : Settings) : String :=
  s.prompt.getD "mal> "

/-- The name of the log level, in upper case. -/
def levelName (s : Settings) : String :=
  Text.upperCase (s.logLevel.getD "WARNING")

/-- The log level. -/
def level (s : Settings) : Except Fault LogLevel :=
  match LogLevel.ofName? s.levelName with
  | some level => .ok level
  | none => .error (.unknownLevel (Text.quoted s.levelName))

end Settings

/-- The log line of a warning about a setting. -/
def DepthWarning.logLine (w : DepthWarning) : LogLine :=
  ⟨.warning, .settings, w.message⟩

/-- The log lines of looking up the limit some number of times. -/
def CallGuard.log (g : CallGuard) (times : Nat) : List LogLine :=
  (List.replicate times g.warning.toList).flatten.map DepthWarning.logLine

end TinyLisp
