/-
Log lines.

A run may be accompanied by log lines. Each has a level and a source, and only
those at or above the chosen level are shown.

* `LogLevel`: the levels, by severity; `LogLevel.ofName?` reads a level.
* `LogLine`: a line, `LogLine.text` as it is shown.
-/
namespace TinyLisp

/-- How severe a log line is, or from which severity on lines are shown. -/
inductive LogLevel where
  | critical
  | error
  | warning
  | info
  | debug
  | all
  deriving DecidableEq

namespace LogLevel

/-- The severity of a level. -/
def severity : LogLevel → Nat
  | critical => 50
  | error => 40
  | warning => 30
  | info => 20
  | debug => 10
  | all => 0

/-- The name of a level on a log line. -/
def name : LogLevel → String
  | critical => "CRITICAL"
  | error => "ERROR"
  | warning => "WARNING"
  | info => "INFO"
  | debug => "DEBUG"
  | all => "NOTSET"

/-- The level of a name in upper case; two levels have a second name. -/
def ofName? : String → Option LogLevel
  | "CRITICAL" | "FATAL" => some critical
  | "ERROR" => some error
  | "WARNING" | "WARN" => some warning
  | "INFO" => some info
  | "DEBUG" => some debug
  | "NOTSET" => some all
  | _ => none

/-- Whether lines of a level are shown from a threshold on. -/
def shows (threshold level : LogLevel) : Bool :=
  threshold.severity ≤ level.severity

end LogLevel

/-- The part of the program that a log line comes from. -/
inductive LogSource where
  | settings
  | session
  | repl
  deriving DecidableEq

/-- The name of a source on a log line. -/
def LogSource.name : LogSource → String
  | settings => "mal.config"
  | session => "mal.interpreter"
  | repl => "mal.repl"

/-- A log line. -/
structure LogLine where
  level : LogLevel
  source : LogSource
  message : String
  deriving DecidableEq

/-- A log line as it is shown. -/
def LogLine.text (line : LogLine) : String :=
  line.level.name ++ ":" ++ line.source.name ++ ":" ++ line.message

end TinyLisp
