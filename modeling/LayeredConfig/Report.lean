import LayeredConfig.Bag.Json
import LayeredConfig.Text.Blank
import LayeredConfig.Yaml.Printer

/-! # Reports

Values and sources as text for people and scripts.

* `OutputFormat`          JSON or YAML
* `OutputFormat.value`    the report of a value
* `OutputFormat.sources`  the report of registered sources -/

namespace LayeredConfig

/-- The format of a report. -/
inductive OutputFormat
  | json
  | yaml
deriving DecidableEq, Repr

namespace OutputFormat

/-- The format with a name, in any case. -/
def parse? (name : String) : Option OutputFormat :=
  match String.ofList (name.toList.map Char.toLower) with
  | "json" => some .json
  | "yaml" => some .yaml
  | "yml" => some .yaml
  | _ => none

/-- The text of a JSON document. -/
def document (format : OutputFormat) (j : Json) : String :=
  match format with
  | .json => j.pretty
  | .yaml => Yaml.print j

/-- The report of a value, without blanks at its end.  A string stands for itself, so that scripts
can use it. -/
def value (format : OutputFormat) : Value → String
  | .string s => s
  | v => (format.document v.toJson).trimBlanksEnd

/-- The report of sources with their priorities, in the given order. -/
def sources (format : OutputFormat) (rows : List (String × Int32)) : String :=
  match format with
  | .json =>
    let row (r : String × Int32) : Json :=
      .object (.ofList [("id", .string r.1), ("priority", .ofInt64 r.2.toInt64)])
    (Json.array (rows.map row)).pretty
  | .yaml =>
    let row (r : String × Int32) : String :=
      "- " ++ r.1 ++ " (priority " ++ .ofList (Numeral.ofInt r.2.toInt) ++ ")\n"
    (String.join (rows.map row)).trimBlanksEnd

end OutputFormat
end LayeredConfig
