/-!
# Tokens of YAML texts

What the syntax of YAML is made of: the indicators, among them some that are not
written but follow from the indentation, and the scalars, tags and names between
them.

Tags are made of bytes, since the escapes in them need not spell characters.
-/

namespace HttpRoutes.Yaml

abbrev Tag := List UInt8

inductive Token where
  | versionDirective (major minor : Nat)
  | tagDirective (handle : String) (start : Tag)
  | documentStart
  | documentEnd
  | blockSequenceStart
  | blockMappingStart
  | blockEnd
  | flowSequenceStart
  | flowSequenceEnd
  | flowMappingStart
  | flowMappingEnd
  | blockEntry
  | flowEntry
  | key
  | value
  | alias (name : String)
  | anchor (name : String)
  | tag (handle : String) (suffix : Tag)
  | scalar (isPlain : Bool) (text : String)
deriving DecidableEq
end HttpRoutes.Yaml
