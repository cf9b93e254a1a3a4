import LayeredConfig.SortedMap.Basic
import LayeredConfig.Text.Quoted

/-! # Errors

What can go wrong, as a cause that fixes the code and the wording, with an optional field name and
further context.

* `Cause`                 the causes
* `Cause.message`         their wording
* `Error.withContext`     add to the context, replacing an entry of the same key -/

namespace LayeredConfig

/-- The code of an error. -/
inductive ErrorCode
  | invalidPath
  | invalidResourceConfig
  | unknownResource
  | duplicateResource
  | duplicateSubscription
  | subscriptionNotFound
  | invalidState
  | decode
  | io
  | internal
deriving DecidableEq, Repr

namespace ErrorCode

/-- All codes, in the order of their groups. -/
def all : List ErrorCode :=
  [.invalidPath, .invalidResourceConfig, .unknownResource, .duplicateResource,
    .duplicateSubscription, .subscriptionNotFound, .invalidState, .decode, .io, .internal]

/-- The name of a code in reports. -/
def name : ErrorCode → String
  | .invalidPath => "INVALID_PATH"
  | .invalidResourceConfig => "INVALID_RESOURCE_CONFIG"
  | .unknownResource => "UNKNOWN_RESOURCE"
  | .duplicateResource => "DUPLICATE_RESOURCE"
  | .duplicateSubscription => "DUPLICATE_SUBSCRIPTION"
  | .subscriptionNotFound => "SUBSCRIPTION_NOT_FOUND"
  | .invalidState => "INVALID_STATE"
  | .decode => "DECODE"
  | .io => "IO"
  | .internal => "INTERNAL"

end ErrorCode

/-- Why an operation failed.  Identifiers and channels of subscriptions are held as diagnostics show
them, since they need not be text. -/
inductive Cause
  | invalidPath (path : String)
  | invalidConfig (id field : String)
  | unknownResource (kind id : String)
  | duplicateResource (kind id : String)
  | duplicateSubscription (id channel : String)
  | subscriptionNotFound (id channel : String)
  | invalidState (reason : String)
  | decode (reason : String)
  | io (reason : String)
  | internal (reason : String)
deriving DecidableEq, Repr

namespace Cause

def code : Cause → ErrorCode
  | .invalidPath _ => .invalidPath
  | .invalidConfig .. => .invalidResourceConfig
  | .unknownResource .. => .unknownResource
  | .duplicateResource .. => .duplicateResource
  | .duplicateSubscription .. => .duplicateSubscription
  | .subscriptionNotFound .. => .subscriptionNotFound
  | .invalidState _ => .invalidState
  | .decode _ => .decode
  | .io _ => .io
  | .internal _ => .internal

def message : Cause → String
  | .invalidPath path => "Invalid path: '" ++ path ++ "'"
  | .invalidConfig id field => "Resource " ++ id ++ " has a missing or invalid '" ++ field ++ "'"
  | .unknownResource kind id => "Unknown " ++ kind ++ ": " ++ id
  | .duplicateResource kind id => "Duplicate " ++ kind ++ ": " ++ id
  | .duplicateSubscription id channel => id ++ " is already subscribed to " ++ channel
  | .subscriptionNotFound id channel => id ++ " is not subscribed to " ++ channel
  | .invalidState reason => reason
  | .decode reason => reason
  | .io reason => reason
  | .internal reason => reason

/-- The field that the cause itself names. -/
def field? : Cause → Option String
  | .invalidConfig _ field => some field
  | _ => none

/-- The context that the cause itself brings. -/
def context : Cause → List (String × String)
  | .invalidPath path => [("path", path)]
  | .invalidConfig id _ => [("id", id)]
  | .unknownResource kind id => [("kind", kind), ("id", id)]
  | .duplicateResource kind id => [("kind", kind), ("id", id)]
  | .duplicateSubscription id channel => [("id", id), ("channel", channel)]
  | .subscriptionNotFound id channel => [("id", id), ("channel", channel)]
  | _ => []

end Cause

/-- An error: its cause, a field name and context for reports. -/
structure Error where
  cause : Cause
  /-- The field at fault. -/
  field? : Option String
  /-- Further facts, by name. -/
  context : SortedMap String String

namespace Error

instance : Inhabited Error := ⟨⟨.internal "", none, .nil⟩⟩

/-- The error of a cause, with the field and the context that the cause brings. -/
def of (cause : Cause) : Error := ⟨cause, cause.field?, .ofList cause.context⟩

def code (e : Error) : ErrorCode := e.cause.code

def message (e : Error) : String := e.cause.message

/-- The same error on another field. -/
def withField (e : Error) (field : String) : Error := { e with field? := some field }

/-- The same error with one more fact, which replaces a fact of the same name. -/
def withContext (e : Error) (key value : String) : Error :=
  { e with context := e.context.insert key value }

def invalidPath (path : String) : Error := of (.invalidPath path)

def invalidConfig (id field : String) : Error := of (.invalidConfig id field)

def unknownResource (kind id : String) : Error := of (.unknownResource kind id)

def duplicateResource (kind id : String) : Error := of (.duplicateResource kind id)

def invalidState (reason : String) : Error := of (.invalidState reason)

def decode (reason : String) : Error := of (.decode reason)

def io (reason : String) : Error := of (.io reason)

def internal (reason : String) : Error := of (.internal reason)

end Error

/-- What is shown of identifiers and channels in diagnostics. -/
class Shown (α : Type) where
  shown : α → String

export Shown (shown)

instance : Shown String := ⟨Text.quoted⟩

instance : Shown Int := ⟨toString⟩

namespace Error

def duplicateSubscription {ι γ : Type} [Shown ι] [Shown γ] (id : ι) (channel : γ) : Error :=
  of (.duplicateSubscription (shown id) (shown channel))

def subscriptionNotFound {ι γ : Type} [Shown ι] [Shown γ] (id : ι) (channel : γ) : Error :=
  of (.subscriptionNotFound (shown id) (shown channel))

end Error
end LayeredConfig
