import LayeredConfig.Files.Basic
import LayeredConfig.Files.Path
import LayeredConfig.SortedMap.Basic

/-! # File trees

A file system as a value.

* `FileTree`           files and directories
* `FileTree.put`       add a node below a directory
* `FileTree.resolve`   where a path leads
* `FileTree.append`    whether a path can be appended to
* `FileTree.files`     the view from a working directory -/

namespace LayeredConfig

/-- A file or a directory. -/
inductive FileTree
  | file (content : RawText)
  | directory (entries : Entries String FileTree none)

namespace FileTree

/-- A directory without entries. -/
def empty : FileTree := .directory .nil

instance : Inhabited FileTree := ⟨empty⟩

/-- The entries of a directory; a file has none. -/
def entries : FileTree → SortedMap String FileTree
  | .file _ => .nil
  | .directory entries => entries

/-- The tree with a node at the end of some segments; directories are made on the way. -/
def put (tree : FileTree) (segments : List String) (node : FileTree) : FileTree :=
  match segments with
  | [] => node
  | segment :: rest =>
    let inner := (tree.entries.find? segment).getD empty
    .directory (tree.entries.insert segment (inner.put rest node))

/-- The longest name of a file, in bytes. -/
def nameLimit : Nat := 255

/-- The longest path, in bytes. -/
def pathLimit : Nat := 4095

/-- Follow segments from `here`, which lies in the directories `above`, the innermost first. -/
def walk (here : FileTree) (above : List FileTree) : List String → Except FileFault FileTree
  | [] => .ok here
  | segment :: rest =>
    match here with
    | .file _ => .error .notDirectory
    | .directory entries =>
      if segment = "" || segment = "." then walk here above rest
      else if segment = ".." then
        match above with
        | [] => walk here [] rest
        | outer :: above => walk outer above rest
      else if nameLimit < segment.utf8ByteSize then .error .nameTooLong
      else
        match entries.find? segment with
        | some node => walk node (here :: above) rest
        | none => .error .notFound

/-- Where a path leads from the directory at the end of `working`. -/
def resolve (root : FileTree) (working : List String) (path : String) :
    Except FileFault FileTree :=
  if path.toList.contains '\x00' then .error .nullInName
  else if path.isEmpty then .error .notFound
  else if pathLimit < path.utf8ByteSize then .error .nameTooLong
  else
    let segments := (Text.splitOn '/' path.toList).map String.ofList
    root.walk [] (if path.toList.head? = some '/' then segments else working ++ segments)

/-- Whether a file at a path can be appended to, or made in a directory that exists. -/
def append (root : FileTree) (working : List String) (path : String) : Except FileFault Unit :=
  match root.resolve working path with
  | .ok (.file _) => .ok ()
  | .ok (.directory _) => .error .isDirectory
  | .error .notFound =>
    if path.isEmpty then .error .notFound
    else
      let above := FilePath.directory path
      match root.resolve working (if above.isEmpty then "." else above) with
      | .ok (.directory _) =>
        if path.toList.getLast? = some '/' then .error .isDirectory else .ok ()
      | .ok (.file _) => .error .notDirectory
      | .error f => .error f
  | .error f => .error f

/-- The view of a tree from a working directory. -/
def files (root : FileTree) (working : List String) : Files where
  openAt path := (root.resolve working path).map fun
    | .file content => .file content
    | .directory _ => .directory
  appendAt := root.append working

end FileTree
end LayeredConfig
