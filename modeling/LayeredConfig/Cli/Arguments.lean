import LayeredConfig.Report

/-! # Arguments of the command line

Options may stand before and after the command, each at most once on either side; after the command
they count more.  A value may follow its option as the next argument, after an equals sign, or, for
a short option, at once.

* `Invocation`         what the arguments ask for
* `UsageError`         why arguments ask for nothing
* `Invocation.parse`   read arguments -/

namespace LayeredConfig.Cli

/-- What to print. -/
inductive Command
  /-- The value at a path. -/
  | get (path : String)
  /-- The whole view. -/
  | dump
  /-- The registered sources. -/
  | sources
deriving DecidableEq, Repr

/-- The options that take a value. -/
inductive Setting
  | config
  | log
  | format
deriving DecidableEq, Repr

namespace Setting

/-- An option as messages name it. -/
def usage : Setting → String
  | .config => "--config <CONFIG>"
  | .log => "--log <LOG>"
  | .format => "--format <FORMAT>"

/-- The option of a long name. -/
def ofLong? : List Char → Option Setting
  | s =>
    if s = "config".toList then some .config
    else if s = "log".toList then some .log
    else if s = "format".toList then some .format
    else none

/-- The option of a short name. -/
def ofShort? : Char → Option Setting
  | 'c' => some .config
  | 'l' => some .log
  | 'f' => some .format
  | _ => none

end Setting

/-- Why arguments ask for nothing to print. -/
inductive UsageError
  /-- The help text was asked for. -/
  | help
  /-- The version was asked for. -/
  | version
  /-- There were no arguments at all. -/
  | nothingAsked
  | unknownArgument (argument : String)
  | unknownCommand (argument : String)
  | missingCommand
  | missingPath
  /-- An option came twice in one place. -/
  | repeated (option : String)
  | missingValue (option : Setting)
  | badValue (option : Setting) (value : String)
  /-- An option that takes no value was given one. -/
  | needlessValue (option value : String)
deriving DecidableEq, Repr

/-- The options given in one place. -/
structure Given where
  config : Option String
  verbose : Bool
  log : Option String
  format : Option OutputFormat
deriving DecidableEq, Repr

namespace Given

def none : Given := ⟨.none, false, .none, .none⟩

/-- The format of a name; unlike elsewhere, only the exact names count. -/
def format? (name : String) : Option OutputFormat :=
  if name = "json" then some .json else if name = "yaml" then some .yaml else .none

/-- Take in an option with its value. -/
def put (g : Given) (s : Setting) (value : String) : Except UsageError Given :=
  match s with
  | .config =>
    if g.config.isSome then .error (.repeated s.usage)
    else if value.isEmpty then .error (.missingValue s)
    else .ok { g with config := some value }
  | .log =>
    if g.log.isSome then .error (.repeated s.usage) else .ok { g with log := some value }
  | .format =>
    if g.format.isSome then .error (.repeated s.usage)
    else match format? value with
      | some f => .ok { g with format := some f }
      | .none => .error (if value.isEmpty then .missingValue s else .badValue s value)

/-- The options given before a command and after it together. -/
def followedBy (before after : Given) : Given where
  config := after.config.or before.config
  verbose := before.verbose || after.verbose
  log := after.log.or before.log
  format := after.format.or before.format

end Given

/-- The place of an argument: before any command, or after one. -/
inductive Place
  | start
  | get
  | dump
  | sources
deriving DecidableEq, Repr

/-- What was read in one place so far. -/
structure Progress where
  given : Given
  /-- An option that waits for its value, or whose value was not looked at yet. -/
  pending : Option (Setting × Option String)
  path : Option String
  /-- Whether the remaining arguments are no options whatever they look like. -/
  literal : Bool

namespace Progress

def start : Progress := ⟨.none, none, none, false⟩

/-- Whether the next argument is a value, unless it looks like an option. -/
def isWaiting (p : Progress) : Bool :=
  match p.pending with
  | some (_, none) => true
  | _ => false

/-- Take in the option that waits, if there is one. -/
def settle (p : Progress) : Except UsageError Progress :=
  match p.pending with
  | none => .ok p
  | some (s, none) => .error (.missingValue s)
  | some (s, some value) => do return { p with given := ← p.given.put s value, pending := none }

/-- Take in an option that came with its value. -/
def putNow (p : Progress) (s : Setting) (value : String) : Except UsageError Progress := do
  let p ← p.settle
  return { p with given := ← p.given.put s value }

/-- Wait for the value of an option. -/
def await (p : Progress) (s : Setting) : Except UsageError Progress := do
  let p ← p.settle
  return { p with pending := some (s, none) }

/-- Take in the option for verbose logs. -/
def putVerbose (p : Progress) : Except UsageError Progress := do
  let p ← p.settle
  if p.given.verbose then .error (.repeated "--verbose")
  else return { p with given := { p.given with verbose := true } }

/-- Give up for a reason that has the options before it taken in first. -/
def stop (p : Progress) (reason : UsageError) : Except UsageError Progress := do
  let _ ← p.settle
  .error reason

/-- A long option, without its hyphens. -/
def long (p : Progress) (place : Place) (body : List Char) : Except UsageError Progress :=
  let name := body.takeWhile (· ≠ '=')
  let value := match body.dropWhile (· ≠ '=') with
    | [] => none
    | _ :: value => some (String.ofList value)
  let plain (done : Except UsageError Progress) : Except UsageError Progress :=
    match value with
    | none => done
    | some value => .error (.needlessValue ("--" ++ .ofList name) value)
  match Setting.ofLong? name with
  | some s =>
    match value with
    | some value => p.putNow s value
    | none => p.await s
  | none =>
    if name = "verbose".toList then plain p.putVerbose
    else if name = "help".toList then plain (p.stop .help)
    else if name = "version".toList ∧ place = .start then plain (p.stop .version)
    else .error (.unknownArgument ("--" ++ .ofList name))

/-- Short options in one argument, without its hyphen. -/
def short (p : Progress) (place : Place) : List Char → Except UsageError Progress
  | [] => .ok p
  | c :: rest =>
    match Setting.ofShort? c with
    | some s =>
      match rest with
      | [] => p.await s
      | '=' :: value => p.putNow s (.ofList value)
      | value => p.putNow s (.ofList value)
    | none =>
      if c = 'v' then do (← p.putVerbose).short place rest
      else if c = 'h' then p.stop .help
      else if c = 'V' ∧ place = .start then p.stop .version
      else .error (.unknownArgument ("-" ++ .singleton c))

end Progress

/-- The commands by name.  The last one prints help. -/
def commandNames : List String := ["get", "dump", "sources", "help"]

/-- An argument that is no option, where none is expected. -/
def unexpected (p : Progress) (place : Place) (argument : String) : UsageError :=
  if place = .start ∧ !(p.literal ∧ commandNames.contains argument) then .unknownCommand argument
  else .unknownArgument argument

/-- What a request for help on a command comes to. -/
def helpOn : List String → UsageError
  | [] => .help
  | name :: rest =>
    if commandNames.contains name then
      match rest with
      | [] => .help
      | next :: _ => .unknownCommand next
    else .unknownCommand name

/-- What an argument is, by its looks. -/
inductive Shape
  /-- Two hyphens alone. -/
  | separator
  | long (body : List Char)
  | short (body : List Char)
  | word

/-- The shape of an argument.  A hyphen alone is a word. -/
def shape (argument : String) : Shape :=
  match argument.toList with
  | ['-', '-'] => .separator
  | '-' :: '-' :: body => .long body
  | '-' :: c :: body => .short (c :: body)
  | _ => .word

/-- Read the arguments in one place, and those of the command that follows.  The result is the
command, if there is one, with all options. -/
def parseFrom (place : Place) (p : Progress) :
    List String → Except UsageError (Given × Option Command)
  | [] => do
    let p ← p.settle
    match place, p.path with
    | .start, _ => return (p.given, none)
    | .get, some path => return (p.given, some (.get path))
    | .get, none => .error .missingPath
    | .dump, _ => return (p.given, some .dump)
    | .sources, _ => return (p.given, some .sources)
  | argument :: rest => do
    -- What is wrong behind the command comes before what is wrong with a waiting option.
    let enter (after : Except UsageError (Given × Option Command)) :
        Except UsageError (Given × Option Command) := do
      let (given, command) ← after
      let p ← p.settle
      return (p.given.followedBy given, command)
    -- A value, or the path of the command.
    let word : Except UsageError (Given × Option Command) :=
      match p.pending, p.literal, place, p.path with
      | some (s, none), false, _, _ =>
        parseFrom place { p with pending := some (s, some argument) } rest
      | _, _, .get, none => do
        parseFrom place { ← p.settle with path := some argument } rest
      | _, _, _, _ => .error (unexpected p place argument)
    if p.literal then word
    else if place = .start ∧ !p.isWaiting ∧ commandNames.contains argument then
      match argument with
      | "get" => enter (parseFrom .get .start rest)
      | "dump" => enter (parseFrom .dump .start rest)
      | "sources" => enter (parseFrom .sources .start rest)
      | _ => .error (helpOn rest)
    else
      match shape argument with
      | .separator => parseFrom place { p with literal := true } rest
      | .long body => do parseFrom place (← p.long place body) rest
      | .short body => do parseFrom place (← p.short place body) rest
      | .word => word

/-- What the arguments ask for. -/
structure Invocation where
  /-- The entry file. -/
  config : Option String
  verbose : Bool
  /-- Where the log goes. -/
  log : String
  format : OutputFormat
  command : Command
deriving DecidableEq, Repr

/-- Read the arguments after the name of the program. -/
def Invocation.parse (arguments : List String) : Except UsageError Invocation := do
  let (given, command) ← parseFrom .start .start arguments
  match command with
  | some command =>
    return ⟨given.config, given.verbose, given.log.getD "2", given.format.getD .yaml, command⟩
  | none => .error (if given = .none then .nothingAsked else .missingCommand)

end LayeredConfig.Cli
