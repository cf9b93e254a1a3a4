import LayeredConfig.Bag.Basic
import LayeredConfig.Error

/-! # Definitions of resources

The part of the configuration that defines one resource, with typed access to its fields.  Few
fields are required; the others have a default in the program or elsewhere in the configuration.

* `Definition.requireString`, `Definition.requireInt`   required fields
* `Definition.requireStringOr`                          required here or at a default path
* `Definition.strings`, `Definition.bagOrEmpty`         fields that may be absent
* `Definition.stringOr` and its kin                     fields with a default in the program -/

namespace LayeredConfig

/-- The definition of a resource. -/
structure Definition where
  id : String
  fields : Bag
  /-- The configuration that holds defaults, if there is one to ask. -/
  defaults : Option Bag

namespace Definition

/-- The error of a field that is missing or unusable. -/
def invalid (d : Definition) (field : String) : Error := .invalidConfig d.id field

/-- The string at a path, if it is not empty. -/
def nonEmpty? (b : Bag) (path : String) : Option String :=
  (b.string? path).filter fun s => !s.isEmpty

/-- A string that is not empty. -/
def requireString (d : Definition) (field : String) : Except Error String :=
  match nonEmpty? d.fields field with
  | some s => .ok s
  | none => .error (d.invalid field)

/-- A string that is not empty, here or at a path of the defaults. -/
def requireStringOr (d : Definition) (field defaultPath : String) : Except Error String :=
  match nonEmpty? d.fields field, d.defaults.bind (nonEmpty? · defaultPath) with
  | some s, _ => .ok s
  | none, some s => .ok s
  | none, none => .error ((d.invalid field).withContext "default_path" defaultPath)

/-- An integer other than zero. -/
def requireInt (d : Definition) (field : String) : Except Error Int64 :=
  match d.fields.int? field with
  | some i => if i = 0 then .error (d.invalid field) else .ok i
  | none => .error (d.invalid field)

def stringOr (d : Definition) (field default : String) : String :=
  (d.fields.string? field).getD default

def intOr (d : Definition) (field : String) (default : Int64) : Int64 :=
  (d.fields.int? field).getD default

def boolOr (d : Definition) (field : String) (default : Bool) : Bool :=
  (d.fields.bool? field).getD default

/-- A list of strings; an absent field is the empty list. -/
def strings (d : Definition) (field : String) : Except Error (List String) :=
  match d.fields.get? field with
  | none => .ok []
  | some (.list items) =>
    match items.mapM Value.asString? with
    | some texts => .ok texts
    | none => .error (d.invalid field)
  | some _ => .error (d.invalid field)

/-- A bag; an absent field and `null` are the empty bag. -/
def bagOrEmpty (d : Definition) (field : String) : Except Error Bag :=
  match d.fields.get? field with
  | none => .ok .nil
  | some .null => .ok .nil
  | some (.bag b) => .ok b
  | some _ => .error (d.invalid field)

end Definition
end LayeredConfig
