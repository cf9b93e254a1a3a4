import LayeredConfig.Error
import LayeredConfig.Text.Raw

/-! # Files

What a program sees of a file system: opening a path gives the content of a file, gives a directory,
which cannot be read, or fails.

* `FileFault`       why the system refuses
* `Opened`          what opening a path gives
* `Opened.read`     read all of it
* `Files`           what paths lead to -/

namespace LayeredConfig

/-- Why the system refuses to open or read a file. -/
inductive FileFault
  | notFound
  | notDirectory
  | isDirectory
  | nameTooLong
  | permissionDenied
  /-- The null character ends names in the system's interface, so no name may hold it. -/
  | nullInName
  /-- The content was wanted as text, and some byte belongs to no character. -/
  | notText
deriving DecidableEq, Repr

namespace FileFault

/-- The name of a fault in reports. -/
def name : FileFault → String
  | .notFound => "NotFound"
  | .notDirectory => "NotADirectory"
  | .isDirectory => "IsADirectory"
  | .nameTooLong => "InvalidFilename"
  | .permissionDenied => "PermissionDenied"
  | .nullInName => "InvalidInput"
  | .notText => "InvalidData"

/-- The system's wording of a fault. -/
def message : FileFault → String
  | .notFound => "No such file or directory (os error 2)"
  | .notDirectory => "Not a directory (os error 20)"
  | .isDirectory => "Is a directory (os error 21)"
  | .nameTooLong => "File name too long (os error 36)"
  | .permissionDenied => "Permission denied (os error 13)"
  | .nullInName => "file name contained an unexpected NUL byte"
  | .notText => "stream did not contain valid UTF-8"

/-- A fault as an error. -/
def toError (f : FileFault) : Error := (Error.io f.message).withContext "kind" f.name

end FileFault

/-- What opening a path gives. -/
inductive Opened
  | file (content : RawText)
  /-- A directory can be opened but not read. -/
  | directory
deriving DecidableEq, Repr

namespace Opened

/-- All of the content. -/
def read : Opened → Except FileFault RawText
  | .file content => .ok content
  | .directory => .error .isDirectory

/-- All of the content as text. -/
def readText (o : Opened) : Except FileFault String := do
  match (← o.read).toString? with
  | some text => .ok text
  | none => .error .notText

end Opened

/-- A view of a file system. -/
structure Files where
  /-- What a path leads to. -/
  openAt : String → Except FileFault Opened
  /-- Whether a file can be opened for appending, or else made, at a path. -/
  appendAt : String → Except FileFault Unit

namespace Files

/-- No files at all. -/
def none : Files := ⟨fun _ => .error .notFound, fun _ => .error .notFound⟩

instance : Inhabited Files := ⟨none⟩

/-- Whether a path leads to a file. -/
def isFile (files : Files) (path : String) : Bool :=
  match files.openAt path with
  | .ok (.file _) => true
  | _ => false

/-- Open a path; a failure names it. -/
def openNamed (files : Files) (path : String) : Except Error Opened :=
  (files.openAt path).mapError fun f => f.toError.withContext "path" path

/-- The text of the file at a path; a failure names the path. -/
def readText (files : Files) (path : String) : Except Error String :=
  (files.openAt path >>= Opened.readText).mapError fun f => f.toError.withContext "path" path

end Files
end LayeredConfig
