import LayeredConfig.Text.Split

/-! # File paths

Paths are texts with segments between slashes.  Empty segments and `.` say nothing, save for a slash
or a `.` at the very start, and a path may end in them.

* `FilePath.join`         a path seen from a directory
* `FilePath.name?`        the last segment
* `FilePath.directory`    what stands before it
* `FilePath.extension?`   what follows the last dot of the last segment -/

namespace LayeredConfig.FilePath

/-- A path seen from the directory `root`; a path with a slash at its start is seen from nowhere
else. -/
def join (root path : String) : String :=
  if path.toList.head? = some '/' then path
  else if root.isEmpty || root.toList.getLast? = some '/' then root ++ path
  else root ++ "/" ++ path

/-- The start of a path that names a directory by itself, and the segments after it. -/
def parts : List Char → List Char × List (List Char)
  | '/' :: rest => (['/'], Text.splitOn '/' rest)
  | '.' :: '/' :: rest => (['.'], [] :: Text.splitOn '/' rest)
  | ['.'] => (['.'], [])
  | s => ([], Text.splitOn '/' s)

/-- Segments that lead nowhere else. -/
def isIdle (segment : List Char) : Bool := segment = [] || segment = ['.']

/-- The segments without the idle ones at the end, the last one first. -/
def lastFirst (segments : List (List Char)) : List (List Char) :=
  segments.reverse.dropWhile isIdle

/-- The name of the file that a path leads to; `..` is no name. -/
def name? (path : String) : Option String :=
  match lastFirst (parts path.toList).2 with
  | [] => none
  | segment :: _ => if segment = ['.', '.'] then none else some (.ofList segment)

/-- What stands before the name of a path, which may be nothing. -/
def directory (path : String) : String :=
  let (start, segments) := parts path.toList
  let above := (lastFirst ((lastFirst segments).drop 1).reverse).reverse
  .ofList (start ++ List.intercalate ['/'] above)

/-- What follows the last dot of a path's name.  A dot at the start of a name does not count. -/
def extension? (path : String) : Option String := do
  let name ← name? path
  let reversed := name.toList.reverse
  match reversed.dropWhile (· ≠ '.') with
  | [] => none
  | [_] => none
  | _ => some (.ofList (reversed.takeWhile (· ≠ '.')).reverse)

end LayeredConfig.FilePath
