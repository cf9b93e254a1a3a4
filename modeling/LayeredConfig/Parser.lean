import LayeredConfig.Files.Basic
import LayeredConfig.Json.Reader
import LayeredConfig.Populate
import LayeredConfig.Yaml.Reader

/-! # Parsers

Readers of configuration documents from opened files.

* `Parser`               a reader of documents
* `Parser.json`          documents in JSON
* `Parser.yaml`          documents in YAML
* `Parser.ofExtension?`  the parser that a file name calls for -/

namespace LayeredConfig

/-- A reader of configuration documents. -/
structure Parser where
  parse : Opened → Except Error Bag

namespace Parser

/-- A failure to read JSON as an error; a failure of the system has no line. -/
def jsonError (message : String) (line : Nat) : Error :=
  ((Error.decode message).withContext "format" "json").withContext "line" (toString line)

/-- Documents in JSON. -/
def json : Parser where
  parse opened :=
    match opened.read with
    | .error f => .error (jsonError f.message 0)
    | .ok content =>
      match Json.read content with
      | .error e => .error (jsonError e.message e.position.line)
      | .ok j => Bag.ofJson j

/-- A failure to read YAML as an error.  Each kind of fault has one wording, and the error does not
tell where in the text the fault is. -/
def yamlError (message : String) : Error := (Error.decode message).withContext "format" "yaml"

/-- Documents in YAML. -/
def yaml : Parser where
  parse opened :=
    match opened.read with
    | .error f => .error (yamlError f.message)
    | .ok content =>
      match Yaml.read content with
      | .error f => .error (yamlError f.message)
      | .ok j => Bag.ofJson j

/-- The parsers that every program has, by id. -/
def builtin : List (String × Parser) := [("json", json), ("yaml", yaml)]

/-- The id of the parser for files with an extension, in any case. -/
def ofExtension? (extension : String) : Option String :=
  match String.ofList (extension.toList.map Char.toLower) with
  | "json" => some "json"
  | "yaml" => some "yaml"
  | "yml" => some "yaml"
  | _ => none

end Parser
end LayeredConfig
