import LayeredConfig.Cli.Usage
import LayeredConfig.EntryPaths
import LayeredConfig.Kernel

/-! # Running the program

What the program prints for given arguments in given surroundings, and how it ends.

* `Ending`       exit status, output and log
* `LogTarget`    where the log goes
* `run`          the program -/

namespace LayeredConfig.Cli

/-- Where the log goes. -/
inductive LogTarget
  | off
  | stdout
  | stderr
  | file (path : String)
deriving DecidableEq, Repr

/-- The target of a name; every name without a meaning of its own is that of a file. -/
def LogTarget.ofName : String → LogTarget
  | "0" => .off
  | "off" => .off
  | "1" => .stdout
  | "stdout" => .stdout
  | "2" => .stderr
  | "stderr" => .stderr
  | path => .file path

/-- How the program ends. -/
structure Ending where
  status : UInt32
  stdout : String
  stderr : String
  /-- The events for the log, and where it goes. -/
  log : List Event
  target : LogTarget
  /-- The error that ended the program early. -/
  failure : Option Error

namespace Ending

/-- An ending of a program that has written no log. -/
def plain (status : UInt32) (stdout stderr : String) : Ending :=
  ⟨status, stdout, stderr, [], .off, none⟩

/-- What arguments that ask for nothing come to. -/
def ofUsage (e : UsageError) : Ending :=
  match e, e.complaint? with
  | .help, _ => plain 0 helpText ""
  | .version, _ => plain 0 versionText ""
  | _, none => plain 2 "" helpText
  | _, some complaint =>
    plain 2 "" ("error: " ++ complaint ++ "\n\nFor more information, try '--help'.\n")

end Ending

/-- A cause below the message that it led to, with all its lines indented. -/
def underCause (message cause : String) : String :=
  let indented := cause.toList.flatMap fun c => if c = '\n' then "\n    ".toList else [c]
  message ++ "\n\nCaused by:\n    " ++ .ofList indented

/-- The report of a failure. -/
def failureText (report : String) : String := "Error: " ++ report ++ "\n"

/-- Whether the log takes an event. -/
def isLogged (verbose : Bool) (e : Event) : Bool :=
  verbose || e.severity = .warn || e.severity = .error

/-- What a command prints, or the message of its failure. -/
def output (command : Command) (format : OutputFormat) (config : Config) :
    Except String String :=
  match command with
  | .get path =>
    match config.merged.get? path with
    | some v => .ok (format.value v)
    | none => .error ("no value at '" ++ path ++ "'")
  | .dump => .ok (format.value (.bag config.merged))
  | .sources => .ok (format.sources config.sources)

/-- Do what an invocation asks for. -/
def perform (i : Invocation) (around : Surroundings) : Ending :=
  let paths := EntryPaths.discover around
  let paths := match i.config with
    | some path => paths.withFile path
    | none => paths
  let entry := paths.resolve around.files
  let shownEntry := match entry with
    | some path => "Some(" ++ Text.quoted path ++ ")"
    | none => "None"
  let start : Event := ⟨.debug, "resolved entry config", [("entry", shownEntry)]⟩
  let boot : Act (Kernel Unit) BootReport := do
    Kernel.wire
    Kernel.boot entry
  let o := boot (Kernel.bare around)
  let target := LogTarget.ofName i.log
  let log := (start :: o.events).filter (isLogged i.verbose)
  match o.result with
  | .error e =>
    ⟨1, "", failureText (underCause "loading configuration" e.message), log, target, some e⟩
  | .ok _ =>
    match output i.command i.format o.state.workshop.config with
    | .ok text => ⟨0, text ++ "\n", "", log, target, none⟩
    | .error message => ⟨1, "", failureText message, log, target, none⟩

/-- What the program does with arguments in given surroundings. -/
def run (arguments : List String) (around : Surroundings) : Ending :=
  match Invocation.parse arguments with
  | .error e => .ofUsage e
  | .ok i =>
    -- The log file comes first, for without it nothing is done.
    match LogTarget.ofName i.log with
    | .file path =>
      match around.files.appendAt path with
      | .ok _ => perform i around
      | .error f =>
        .plain 1 "" (failureText (underCause ("opening log file " ++ path) f.message))
    | _ => perform i around

end LayeredConfig.Cli
