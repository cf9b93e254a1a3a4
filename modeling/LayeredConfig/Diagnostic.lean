/-! # Diagnostics

What the engine reports about its work while it runs.

* `Severity`   how severe an event is
* `Event`      a message with named fields -/

namespace LayeredConfig

/-- How severe an event is. -/
inductive Severity
  | debug
  | info
  | warn
  | error
deriving DecidableEq, Repr

/-- The name of a severity in reports. -/
def Severity.name : Severity → String
  | .debug => "DEBUG"
  | .info => "INFO"
  | .warn => "WARN"
  | .error => "ERROR"

/-- A message with named fields. -/
structure Event where
  severity : Severity
  message : String
  fields : List (String × String)
deriving DecidableEq, Repr

end LayeredConfig
