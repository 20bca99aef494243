import HttpRoutes.Rule.Decoding
import HttpRoutes.Yaml.Node.Reader

/-!
# Rule sets in YAML

Every scalar has a text, whatever its tag, and an alias has that of the node it
refers to.  A record has to be a mapping.  Where nothing is written, records and
lists are empty and optional fields are left out; a null written out leaves out
optional fields only.

Aliases let a short text stand for a very long one, so they may be followed only
so many times: a hundred times the size of the document.
-/

namespace HttpRoutes

namespace Yaml

def nullTag : Tag := tagBytes "tag:yaml.org,2002:null".toList

def isNullWord (text : String) : Bool :=
  text = "~" || text = "null" || text = "Null" || text = "NULL"

/-- The nodes that aliases refer to: of those with the same number the last. -/
structure Anchors where
  nodes : List (Nat × Node)

/-- Decoding counts down how many more times an alias may be followed. -/
abbrev Following := StateT Nat Option

namespace Anchors

def ofNode (node : Node) : Anchors := ⟨node.anchored.reverse⟩

/-- The node itself, or the one that it refers to. -/
def resolve (anchors : Anchors) (node : Node) : Following Node :=
  match node with
  | .alias target => do
    let left ← get
    if left = 0 then failure
    set (left - 1)
    anchors.nodes.lookup target
  | node => pure node

def text (anchors : Anchors) (node : Node) : Following String := do
  match ← anchors.resolve node with
  | .scalar _ _ _ text => pure text
  | _ => failure

def optional (anchors : Anchors) (node : Node) : Following (Option Node) := do
  let node ← anchors.resolve node
  match node with
  | .scalar _ none true text =>
    pure (if text.isEmpty || isNullWord text then none else some node)
  | .scalar _ (some tag) true text =>
    if tag != nullTag then pure (some node)
    else if isNullWord text then pure none
    else failure
  | _ => pure (some node)

/-- The entries of a mapping, given its keys and values in turn. -/
def entries (anchors : Anchors) : List Node → Following (List (String × Node))
  | key :: value :: members => do
    let name ← anchors.text key
    let others ← anchors.entries members
    pure ((name, value) :: others)
  | _ => pure []

def fields (anchors : Anchors) (depth : Nat) (node : Node) :
    Following (List (String × Node)) := do
  match ← anchors.resolve node with
  | .mapping _ members => if depth = 0 then failure else anchors.entries members
  | .scalar _ _ true "" => pure []
  | _ => failure

def items (anchors : Anchors) (depth : Nat) (node : Node) : Following (List Node) := do
  match ← anchors.resolve node with
  | .sequence _ items => if depth = 0 then failure else pure items
  | .scalar _ _ true "" => pure []
  | _ => failure

def ruleNotation (anchors : Anchors) : Notation Following Node where
  text := anchors.text
  optional := anchors.optional
  fields := fun depth _ => anchors.fields depth
  items := anchors.items

end Anchors
end Yaml

namespace RuleSet

/-- How deep the rules of a YAML text may be nested. -/
def yamlDepth : Nat := 128

/-- How many times the aliases of a YAML text may be followed. -/
def yamlFollows (root : Yaml.Node) : Nat := 100 * root.marks

/-- Read a rule set from a YAML text. -/
def readYaml? (text : String) : Option RuleSet := do
  let root ← Yaml.Node.ofText? text
  ((Yaml.Anchors.ofNode root).ruleNotation.ruleSet yamlDepth root).run'
    (yamlFollows root)

end RuleSet
end HttpRoutes
