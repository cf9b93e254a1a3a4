import LayeredConfig.Diagnostic
import LayeredConfig.Error
import LayeredConfig.Text.Blank

/-! # Log levels

* `Level`          the levels, the least severe first
* `Level.parse`    the level that a text names -/

namespace LayeredConfig

/-- How severe a log record is. -/
inductive Level
  | debug
  | info
  | notice
  | warning
  | error
  | fatal
deriving DecidableEq, Repr

namespace Level

/-- The levels, the least severe first. -/
def all : List Level := [.debug, .info, .notice, .warning, .error, .fatal]

/-- The place of a level among all, from zero. -/
def rank : Level → Nat
  | .debug => 0
  | .info => 1
  | .notice => 2
  | .warning => 3
  | .error => 4
  | .fatal => 5

/-- Levels are ordered by severity. -/
instance : LE Level := ⟨fun a b => a.rank ≤ b.rank⟩

instance : LT Level := ⟨fun a b => a.rank < b.rank⟩

instance (a b : Level) : Decidable (a ≤ b) := inferInstanceAs (Decidable (a.rank ≤ b.rank))

instance (a b : Level) : Decidable (a < b) := inferInstanceAs (Decidable (a.rank < b.rank))

def name : Level → String
  | .debug => "debug"
  | .info => "info"
  | .notice => "notice"
  | .warning => "warning"
  | .error => "error"
  | .fatal => "fatal"

/-- The level with exactly this name. -/
def ofName? (name : String) : Option Level := all.find? fun l => l.name == name

/-- The level that a text names, in any case, between blanks and with a short form for warnings. -/
def parse (text : String) : Except Error Level :=
  let name := String.ofList ((Text.trim text.toList).map Char.toLower)
  match if name = "warn" then some .warning else ofName? name with
  | some level => .ok level
  | none => .error (.decode ("unknown log level '" ++ name ++ "'"))

/-- The closest severity of a diagnostic event. -/
def severity : Level → Severity
  | .debug => .debug
  | .info => .info
  | .notice => .info
  | .warning => .warn
  | .error => .error
  | .fatal => .error

end Level
end LayeredConfig
