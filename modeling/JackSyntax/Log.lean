/-!
# Log records

What a run tells besides its result: lines with a level and the name of the part that speaks.

Headlines:
* `Verbosity.threshold` is the least level that is shown.
* `LogRecord.shown` keeps the lines of the records that reach a level.
-/

namespace JackSyntax

/-- How important a record is. -/
inductive LogLevel where
  | debug
  | info
  | warning
  | error
deriving DecidableEq, Repr, Inhabited

namespace LogLevel

/-- The name of a level. -/
def name : LogLevel → String
  | debug => "DEBUG"
  | info => "INFO"
  | warning => "WARNING"
  | error => "ERROR"

/-- The rank of a level; more important ones are higher. -/
def rank : LogLevel → Nat
  | debug => 10
  | info => 20
  | warning => 30
  | error => 40

end LogLevel

/-- How much a user wants to see. -/
inductive Verbosity where
  | quiet
  | normal
  | verbose
deriving DecidableEq, Repr, Inhabited

namespace Verbosity

/-- The wish of two switches; the first wins. -/
def ofSwitches (verbose quiet : Bool) : Verbosity :=
  if verbose then .verbose else if quiet then .quiet else .normal

/-- The least level that is shown. -/
def threshold : Verbosity → LogLevel
  | quiet => .warning
  | normal => .info
  | verbose => .debug

end Verbosity

/-- The name that all loggers stand under. -/
def rootLogger : String :=
  "jackal"

/-- The full name of a logger: it stands under the root unless it does already. -/
def loggerName (name : String) : String :=
  if name == rootLogger || (rootLogger ++ ".").toList.isPrefixOf name.toList then name
  else rootLogger ++ "." ++ name

/-- One line of the log. -/
structure LogRecord where
  level : LogLevel
  logger : String
  text : String
deriving DecidableEq, Repr

namespace LogRecord

/-- The text of a record. -/
def line (record : LogRecord) : String :=
  s!"{record.level.name} {record.logger}: {record.text}"

/-- The lines of the records that reach a level, each ended by a newline. -/
def shown (threshold : LogLevel) (records : List LogRecord) : String :=
  String.join <| (records.filter fun record => threshold.rank ≤ record.level.rank).map
    fun record => record.line ++ "\n"

end LogRecord

end JackSyntax
