import CqlGateway.Failure
import CqlGateway.Text.Case

/-!
# Log levels

A logger writes entries of its level and above. The level is given by name; without one it is that
of the mode in which the gateway runs.
-/

namespace CqlGateway

inductive LogLevel where
  | debug
  | info
  | warn
  | error
  | dpanic
  | panic
  | fatal
  deriving DecidableEq, Repr

namespace LogLevel

/-- All levels, the gravest last. -/
def all : List LogLevel := [.debug, .info, .warn, .error, .dpanic, .panic, .fatal]

def name : LogLevel → String
  | .debug => "debug"
  | .info => "info"
  | .warn => "warn"
  | .error => "error"
  | .dpanic => "dpanic"
  | .panic => "panic"
  | .fatal => "fatal"

def ofName? (name : String) : Option LogLevel :=
  all.find? (·.name = Text.lower name)

/-- The level of a logger: the one that is named, or else that of the mode. -/
def ofSettings (name : String) (development : Bool) : Except Failure LogLevel :=
  if name = "" then .ok (if development then .debug else .info)
  else
    match ofName? name with
    | some level => .ok level
    | none =>
      .error (.wrapped ("invalid log level " ++ Text.quote name)
        (.foreign ("unrecognized level: " ++ Text.quote name)))

/-- The levels of the entries that a logger of a level writes. -/
def enabled (level : LogLevel) : List LogLevel :=
  all.dropWhile (· ≠ level)

end LogLevel

end CqlGateway
