import HttpRoutes.Rule.Basic

/-!
# Rule sets as documents

Rule sets are written in more than one notation.  What a notation has to offer
is small: a value may have a text, may leave an optional field out, may list
named fields and may list items.  Decoding is the same for all of them: unknown
fields are passed over, a known field may be given once, and a missing field has
its default, except that a custom pattern needs both of its fields.

Notations that can refer back to an enclosing value describe endless documents,
so decoding takes the nesting depth that is allowed.  A notation refuses to open
a value where no depth is left; what it has for an empty list or record need not
be opened.  Notations can also refer to the same value over and over; what that
costs is up to the monad `m`, in which a notation may fail or keep count.
-/

namespace HttpRoutes

structure Notation (m : Type → Type) (ν : Type) where
  text : ν → m String
  /-- The value of an optional field, or nothing if it is left out. -/
  optional : ν → m (Option ν)
  /-- The named fields of a value that may be nested so deep.  The names known here
  are given in order. -/
  fields : Nat → List String → ν → m (List (String × ν))
  /-- The items of a value that may be nested so deep. -/
  items : Nat → ν → m (List ν)

def customFields : List String := ["kind", "path"]

def ruleFields : List String :=
  ["selector", "get", "put", "post", "delete", "patch", "custom", "body",
    "additional_bindings"]

namespace Notation

variable {m : Type → Type} {ν : Type} [Monad m] [MonadExceptOf Unit m]

/-- The fields of a value, provided that no known one is given twice. -/
def record (form : Notation m ν) (depth : Nat) (names : List String) (value : ν) :
    m (List (String × ν)) := do
  let fields ← form.fields depth names value
  if names.all fun name => (fields.filter fun field => field.1 = name).length ≤ 1 then
    pure fields
  else
    throw ()

/-- The value of a field, decoded, or `missing` where the field is not given. -/
def field {β : Type} (fields : List (String × ν)) (name : String) (missing : m β)
    (decode : ν → m β) : m β :=
  match fields.find? fun field => field.1 = name with
  | none => missing
  | some (_, value) => decode value

/-- Decode the value of an optional field. -/
def option {β : Type} (form : Notation m ν) (decode : ν → m β) (value : ν) :
    m (Option β) := do
  match ← form.optional value with
  | none => pure none
  | some value => some <$> decode value

def custom (form : Notation m ν) (depth : Nat) (value : ν) : m CustomPattern := do
  let fields ← form.record depth customFields value
  let kind ← field fields "kind" (throw ()) form.text
  let path ← field fields "path" (throw ()) form.text
  pure ⟨kind, path⟩

/-- Decode a rule that may be nested `depth` deep. -/
def rule (form : Notation m ν) : Nat → ν → m HttpRule
  | 0, value => do
    let fields ← form.record 0 ruleFields value
    if fields.isEmpty then pure .blank else throw ()
  | depth + 1, value => do
    let fields ← form.record (depth + 1) ruleFields value
    let optionalText := fun name =>
      field fields name (pure none) (form.option form.text)
    let selector ← field fields "selector" (pure "") form.text
    let get ← optionalText "get"
    let put ← optionalText "put"
    let post ← optionalText "post"
    let delete ← optionalText "delete"
    let patch ← optionalText "patch"
    let custom ← field fields "custom" (pure none) (form.option (form.custom depth))
    let body ← optionalText "body"
    let additional ←
      match fields.find? fun field => field.1 = "additional_bindings" with
      | none => pure []
      | some (_, value) =>
        match depth with
        | 0 => do
          let items ← form.items 0 value
          if items.isEmpty then pure [] else throw ()
        | depth + 1 => do
          let items ← form.items (depth + 1) value
          items.mapM (rule form depth)
    pure ⟨selector, get, put, post, delete, patch, custom, body, additional⟩

/-- Decode a rule set from a document that may be nested `depth` deep. -/
def ruleSet (form : Notation m ν) (depth : Nat) (document : ν) : m RuleSet := do
  let top ← form.record depth ["http"] document
  let rules ← field top "http" (pure []) fun http => do
    let fields ← form.record (depth - 1) ["rules"] http
    field fields "rules" (pure []) fun rules => do
      let items ← form.items (depth - 2) rules
      items.mapM (form.rule (depth - 3))
  pure ⟨rules⟩

end Notation
end HttpRoutes
