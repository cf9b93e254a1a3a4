import LayeredConfig.Cli.Run

/-! # The program

Reads the variables and the files that a run turns out to need, prints, and ends with a status. -/

namespace LayeredConfig.Main

/-- The fault behind a failure of the system. -/
def faultOf : IO.Error → FileFault
  | .permissionDenied .. => .permissionDenied
  | .inappropriateType _ code _ => if code = 21 then .isDirectory else .notDirectory
  | .invalidArgument .. => .nullInName
  | .resourceExhausted .. => .nameTooLong
  | _ => .notFound

/-- What a path of the system leads to. -/
def probe (path : String) : IO (Except FileFault Opened) := do
  try
    let bytes ← IO.FS.readBinFile path
    return .ok (.file (.decode bytes.toList))
  catch e =>
    match faultOf e with
    -- To open a directory succeeds; only reading it fails.
    | .isDirectory => return .ok .directory
    | f => return .error f

/-- Whether a file of the system can be appended to; makes it if need be. -/
def probeAppend (path : String) : IO (Except FileFault Unit) := do
  try
    let _ ← IO.FS.Handle.mk path .append
    return .ok ()
  catch e => return .error (faultOf e)

/-- The variables of the process. -/
def environment : IO (List (String × String)) := do
  match ← probe "/proc/self/environ" with
  | .ok (.file content) =>
    let entries := Text.splitOn '\x00' (content.chars?.getD [])
    return entries.filterMap fun e =>
      match e.dropWhile (· ≠ '=') with
      | [] => none
      | _ :: value => some (.ofList (e.takeWhile (· ≠ '=')), .ofList value)
  | _ => return []

/-- What is known of the files. -/
abbrev Known : Type := List (String × Except FileFault Opened)

/-- Files as far as they are known. -/
def filesOf (known : Known) (append : Except FileFault Unit) : Files where
  openAt path := (known.lookup path).getD (.error .notFound)
  appendAt _ := append

/-- Run the program on what is known of the files.  While the run fails at a path that was not
probed yet, probe it and run again. -/
partial def settle (arguments : List String) (vars : List (String × String))
    (append : Except FileFault Unit) (known : Known) : IO Cli.Ending := do
  let ending := Cli.run arguments ⟨filesOf known append, vars⟩
  match ending.failure.bind (·.context.find? "path") with
  | some path =>
    if (known.lookup path).isSome then return ending
    settle arguments vars append ((path, ← probe path) :: known)
  | none => return ending

/-- Probe the candidates for the entry file. -/
def probeCandidates (vars : List (String × String)) : IO Known := do
  let paths := EntryPaths.discover ⟨.none, vars⟩
  (paths.project.toList ++ paths.user.toList).mapM fun path => return (path, ← probe path)

/-- Whether the log file that arguments name can be appended to. -/
def probeLog (arguments : List String) : IO (Except FileFault Unit) := do
  match (Cli.Invocation.parse arguments).map fun i => Cli.LogTarget.ofName i.log with
  | .ok (.file path) => probeAppend path
  | _ => return .ok ()

/-- A line of the log. -/
def logLine (e : Event) : String :=
  let fields := e.fields.map fun f => " " ++ f.1 ++ "=" ++ f.2
  e.severity.name ++ " " ++ e.message ++ String.join fields ++ "\n"

/-- Write the log to its target. -/
def writeLog (ending : Cli.Ending) : IO Unit := do
  let text := String.join (ending.log.map logLine)
  match ending.target with
  | .off => return
  | .stdout => IO.print text
  | .stderr => IO.eprint text
  | .file path => (← IO.FS.Handle.mk path .append).putStr text

end LayeredConfig.Main

open LayeredConfig.Main in
/-- The program. -/
def main (arguments : List String) : IO UInt32 := do
  let vars ← environment
  let append ← probeLog arguments
  let ending ← settle arguments vars append (← probeCandidates vars)
  writeLog ending
  IO.print ending.stdout
  IO.eprint ending.stderr
  return ending.status
