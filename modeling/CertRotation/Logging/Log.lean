import CertRotation.Logging.Directive
import CertRotation.Logging.Settings
import CertRotation.Retryable
import CertRotation.Text.Quoted

/-!
# The log

A log keeps the lines that its filter lets through, and the filter can be replaced while the program
runs.  A program has one log of its own; it is set up once (`Log.setUp`), and then the log says so
in its first line.
-/

set_option autoImplicit false

namespace CertRotation

/-- A line of a log. -/
structure LogLine where
  level : LogLevel
  target : String
  message : String
  service : List Char
  deriving DecidableEq

/-- A log: its filter, as long as somebody keeps it. -/
structure Log where
  filter : Option LogFilter
  json : Bool
  deriving DecidableEq

namespace Log

/-- A log with its own filter, apart from the log of the program. -/
def build (s : LogSettings) : Except SetupError Log :=
  match LogFilter.parse s.level with
  | .ok filter => .ok ⟨some filter, s.json⟩
  | .error flaw =>
    .error (.invalidConfig ("log_level " ++ Text.quote s.level ++ ": " ++ flaw.message))

/-- The directives that are in force. -/
def current (log : Log) : Option String := log.filter.map LogFilter.shown

/-- Replaces the filter.  A log that nobody keeps has none to be replaced. -/
def setLevel (log : Log) (directives : List Char) : Except SetupError Log :=
  match LogFilter.parse directives with
  | .error flaw =>
    .error
      (.invalidConfig ("invalid directives " ++ Text.quote directives ++ ": " ++ flaw.message))
  | .ok filter =>
    match log.filter with
    | none => .error (.logging "subscriber no longer exists")
    | some _ => .ok { log with filter := some filter }

/-- Nobody keeps the log any more. -/
def drop (log : Log) : Log := { log with filter := none }

/-- The number of levels that are kept for a target. -/
def enabled (log : Log) (target : List Char) : Option Nat :=
  log.filter.map fun filter => (filter.levelFor target).count

/-! ## The log of the program -/

/-- The target of the lines about the log itself. -/
def ownTarget : String := "sdk_common::tracing_config"

/-- The filter of the program's log: a variable of the environment comes first, if it is there and
can be read, and then the settings, as far as they can be read. -/
def startFilter (s : LogSettings) (given : Option (List Char)) : LogFilter :=
  match given.map LogFilter.parse with
  | some (.ok filter) => filter
  | _ => LogFilter.parseLenient s.level

/-- Sets up the program's log if there is none yet; the new log and its first lines. -/
def setUp (existing : Option Log) (s : LogSettings) (given : Option (List Char)) :
    Except SetupError (Log × List LogLine) :=
  match existing with
  | some _ => .error (.logging "a global default trace dispatcher has already been set")
  | none =>
    let filter := startFilter s given
    let line : LogLine := ⟨.debug, ownTarget, "tracing initialized", s.serviceName⟩
    let kept := LogLevel.debug.count ≤ (filter.levelFor ownTarget.toList).count
    .ok (⟨some filter, s.json⟩, if kept then [line] else [])

end Log
end CertRotation
