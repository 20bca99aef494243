import HttpRoutes.Json.Reader
import HttpRoutes.Rule.Decoding

/-!
# Rule sets in JSON

An object lists its fields under their names; an array lists them in order, as
many as it has items for.  Only `null` leaves an optional field out.

Writing a rule set leaves out the optional fields that are not set and empty
lists of additional bindings.  Selectors and the list of rules are always
written.
-/

namespace HttpRoutes

namespace Json

/-- The members of an object, provided that all their names have a text. -/
def namedMembers : List (Option String × Json) → Option (List (String × Json))
  | [] => some []
  | (none, _) :: _ => none
  | (some name, value) :: members =>
    (namedMembers members).map fun members => (name, value) :: members

def fields? (names : List String) : Json → Option (List (String × Json))
  | .object members => namedMembers members
  | .array items =>
    if items.length ≤ names.length then some (names.zip items) else none
  | _ => none

def ruleNotation : Notation Option Json where
  text := text?
  optional := fun value =>
    match value with
    | .null => some none
    | value => some (some value)
  fields := fun depth names value => if depth = 0 then none else fields? names value
  items := fun depth value =>
    match value with
    | .array items => if depth = 0 then none else some items
    | _ => none

end Json

/-- A member that is written only if there is a value for it. -/
def optionalMember (name : String) : Option Json → List (Option String × Json)
  | none => []
  | some value => [Json.member name value]

def CustomPattern.toJson (custom : CustomPattern) : Json :=
  .object [Json.member "kind" (.ofText custom.kind),
    Json.member "path" (.ofText custom.path)]

mutual

def HttpRule.toJson : HttpRule → Json
  | ⟨selector, get, put, post, delete, patch, custom, body, additional⟩ =>
    .object
      (Json.member "selector" (.ofText selector) ::
        (optionalMember "get" (get.map .ofText) ++
          optionalMember "put" (put.map .ofText) ++
          optionalMember "post" (post.map .ofText) ++
          optionalMember "delete" (delete.map .ofText) ++
          optionalMember "patch" (patch.map .ofText) ++
          optionalMember "custom" (custom.map CustomPattern.toJson) ++
          optionalMember "body" (body.map .ofText) ++
          optionalMember "additional_bindings"
            (if additional.isEmpty then none else some (.array (rulesToJson additional)))))

def rulesToJson : List HttpRule → List Json
  | [] => []
  | rule :: rules => rule.toJson :: rulesToJson rules

end

namespace RuleSet

def toJson (rules : RuleSet) : Json :=
  .object [Json.member "http"
    (.object [Json.member "rules" (.array (rulesToJson rules.rules))])]

/-- The rule set that a value describes, however deep it is nested. -/
def ofJson? (value : Json) : Option RuleSet :=
  Json.ruleNotation.ruleSet (value.nesting + 3) value

/-- How deep the rules of a JSON text may be nested. -/
def jsonDepth : Nat := 127

/-- Read a rule set from a JSON text. -/
def readJson? (text : String) : Option RuleSet := do
  let value ← Json.parse? text
  Json.ruleNotation.ruleSet jsonDepth value

end RuleSet
end HttpRoutes
