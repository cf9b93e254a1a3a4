import LayeredConfig.Error
import LayeredConfig.Text.Blank
import LayeredConfig.Text.Lines

/-! # Dotenv files

Lines of the form `key=value`, with comments, an optional `export` before the key, and values that
may be quoted.

* `Dotenv.Fault`      why a line is no entry
* `Dotenv.unquote`    the text that a written value stands for
* `Dotenv.entry`      the entry on a line
* `Dotenv.parse`      the entries of a text in order -/

namespace LayeredConfig.Dotenv

/-- Why a line is no entry. -/
inductive Fault
  | noEquals
  | emptyKey
deriving DecidableEq, Repr

/-- A fault on a line, counted from one, as an error. -/
def Fault.toError (f : Fault) (line : Nat) : Error :=
  let complaint := match f with
    | .noEquals => " has no '='"
    | .emptyKey => " has an empty key"
  (Error.decode ("dotenv line " ++ toString line ++ complaint)).withContext "line" (toString line)

/-- The text between double quotes: `\n` and `\t` are a line feed and a tab, and every other
character after a backslash is itself. -/
def unescape : List Char → List Char
  | '\\' :: 'n' :: rest => '\n' :: unescape rest
  | '\\' :: 't' :: rest => '\t' :: unescape rest
  | '\\' :: c :: rest => c :: unescape rest
  | c :: rest => c :: unescape rest
  | [] => []

/-- The text up to a space that a number sign follows, if there is such a space. -/
def beforeComment? : List Char → Option (List Char)
  | ' ' :: '#' :: _ => some []
  | c :: rest => (beforeComment? rest).map (c :: ·)
  | [] => none

/-- The text between two quotes that enclose all of a value. -/
def inside? (quote : Char) : List Char → Option (List Char)
  | c :: rest =>
    if c = quote ∧ rest.getLast? = some quote then some rest.dropLast else none
  | [] => none

/-- The text that a written value stands for.  A comment may follow a value without quotes. -/
def unquote (s : List Char) : List Char :=
  match inside? '"' s, inside? '\'' s, beforeComment? s with
  | some inner, _, _ => unescape inner
  | none, some inner, _ => inner
  | none, none, some value => Text.trimEnd value
  | none, none, none => s

/-- A line after the word `export`, if it starts with it. -/
def dropExport (s : List Char) : List Char :=
  if "export ".toList.isPrefixOf s then s.drop 7 else s

/-- The key and the value on a line; nothing on blank lines and comments. -/
def entry (line : List Char) : Except Fault (Option (String × String)) :=
  let line := Text.trim line
  if line = [] ∨ line.head? = some '#' then .ok none
  else
    let line := dropExport line
    match line.dropWhile (· ≠ '=') with
    | [] => .error .noEquals
    | _ :: value =>
      -- The first equals sign ends the key; others belong to the value.
      let key := Text.trim (line.takeWhile (· ≠ '='))
      if key = [] then .error .emptyKey
      else .ok (some (.ofList key, .ofList (unquote (Text.trim value))))

/-- The entries of lines, of which the first has the given number. -/
def entries (number : Nat) : List (List Char) → Except Error (List (String × String))
  | [] => .ok []
  | line :: rest =>
    match entry line with
    | .error f => .error (f.toError number)
    | .ok none => entries (number + 1) rest
    | .ok (some e) => (entries (number + 1) rest).map (e :: ·)

/-- The entries of a text in order. -/
def parse (text : String) : Except Error (List (String × String)) :=
  entries 1 (Text.lines text.toList)

end LayeredConfig.Dotenv
