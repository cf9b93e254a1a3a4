/-! # Faults in YAML

* `Yaml.Fault`   why a text is no document that configuration can use

A fault knows its kind only, not the line or column of the text at which it was found. -/

namespace LayeredConfig.Yaml

/-- Why a text is no document that configuration can use. -/
inductive Fault
  /-- A byte or control character that no document may hold. -/
  | invalidCharacter
  /-- A character that no token starts with. -/
  | unexpectedCharacter
  /-- A key without its colon. -/
  | unfinishedKey
  /-- An entry, key or value where none may start. -/
  | misplacedIndicator
  | malformedDirective
  | malformedAnchor
  | malformedTag
  | malformedBlockHeader
  /-- A tab where only spaces indent. -/
  | tabIndentation
  | unfinishedScalar
  | invalidEscape
  | unexpectedColon
  /-- A token that the grammar does not admit. -/
  | unexpectedToken
  | incompatibleVersion
  | duplicateDirective
  | undefinedTagHandle
  | unknownAnchor
  | repetitionLimit
  | recursionLimit
  | severalDocuments
  /-- A tag of the document's own, which no configuration value has. -/
  | customTag
  /-- A scalar that is not what its tag says. -/
  | tagMismatch
  /-- An integer beyond 64 bits. -/
  | wideInteger
  /-- A key that is no scalar. -/
  | keyNotScalar
deriving DecidableEq, Repr

/-- The wording of a fault. -/
def Fault.message : Fault → String
  | .invalidCharacter => "control characters are not allowed"
  | .unexpectedCharacter => "found character that cannot start any token"
  | .unfinishedKey => "could not find expected ':'"
  | .misplacedIndicator => "block entries and mappings are not allowed in this context"
  | .malformedDirective => "malformed directive"
  | .malformedAnchor => "did not find expected alphabetic or numeric character"
  | .malformedTag => "malformed tag"
  | .malformedBlockHeader => "malformed header of a block scalar"
  | .tabIndentation => "found a tab character where an indentation space is expected"
  | .unfinishedScalar => "found unexpected end of a quoted scalar"
  | .invalidEscape => "found unknown escape character"
  | .unexpectedColon => "found unexpected ':'"
  | .unexpectedToken => "did not find expected node content"
  | .incompatibleVersion => "found incompatible YAML document"
  | .duplicateDirective => "found duplicate directive"
  | .undefinedTagHandle => "found undefined tag handle"
  | .unknownAnchor => "unknown anchor"
  | .repetitionLimit => "repetition limit exceeded"
  | .recursionLimit => "recursion limit exceeded"
  | .severalDocuments => "more than one document"
  | .customTag => "custom tags have no value"
  | .tagMismatch => "a scalar does not fit its tag"
  | .wideInteger => "integer out of range"
  | .keyNotScalar => "a key must be a scalar"

end LayeredConfig.Yaml
