import LayeredConfig.Text.Split

/-! # Paths

Dot-separated addresses of entries in nested bags.

* `Path`          a non-empty list of segments
* `Path.parse?`   refuses empty texts and empty segments
* `Path.join`     the text of a key below a base -/

namespace LayeredConfig

/-- The address of an entry: the keys that lead to it, at least one. -/
structure Path where
  /-- The key in the outermost bag. -/
  head : String
  /-- The keys in the bags below. -/
  tail : List String
deriving DecidableEq, Repr

namespace Path

/-- The character between two segments. -/
def separator : Char := '.'

/-- The keys of a path, from the outermost. -/
def segments (p : Path) : List String := p.head :: p.tail

/-- The path that a text writes, if none of its segments is empty. -/
def parse? (text : String) : Option Path :=
  let pieces := Text.splitOn separator text.toList
  if pieces.any List.isEmpty then none
  else match pieces.map String.ofList with
    | [] => none
    | head :: tail => some ⟨head, tail⟩

/-- The text of `key` below `base`; the empty base adds nothing. -/
def join (base key : String) : String :=
  if base.isEmpty then key else base ++ "." ++ key

end Path
end LayeredConfig
