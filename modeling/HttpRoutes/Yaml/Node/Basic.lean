import HttpRoutes.Yaml.Token.Basic

/-!
# Nodes of YAML texts

The tokens of a text amount to a tree of nodes.  A node may carry an anchor, by
which an alias elsewhere refers to it.  Anchors are numbered: a new one gets the
number of names that are in use so far.  A name that is used again therefore
does not add to the count, so that several nodes can come to have the same
number, and the last one of them to begin is the one that an alias gets.
-/

namespace HttpRoutes.Yaml

inductive Node where
  | scalar (anchor : Option Nat) (tag : Option Tag) (isPlain : Bool) (text : String)
  | sequence (anchor : Option Nat) (items : List Node)
  /-- The members are the keys and values of all entries in turn. -/
  | mapping (anchor : Option Nat) (members : List Node)
  | alias (target : Nat)

namespace Node

/-- What stands where nothing is written. -/
def empty : Node := .scalar none none true ""

def anchor? : Node → Option Nat
  | .scalar anchor .. => anchor
  | .sequence anchor _ => anchor
  | .mapping anchor _ => anchor
  | .alias _ => none

end Node

mutual

/-- The nodes within a node that have an anchor, in the order in which they
begin. -/
def Node.anchored (node : Node) : List (Nat × Node) :=
  let own := (node.anchor?.map fun anchor => (anchor, node)).toList
  match node with
  | .sequence _ items => own ++ anchoredAmong items
  | .mapping _ members => own ++ anchoredAmong members
  | _ => own

def anchoredAmong : List Node → List (Nat × Node)
  | [] => []
  | node :: nodes => node.anchored ++ anchoredAmong nodes

end

mutual

/-- The size of a node: a scalar or an alias counts once, a collection once for
its beginning and once for its end. -/
def Node.marks : Node → Nat
  | .sequence _ items => marksAmong items + 2
  | .mapping _ members => marksAmong members + 2
  | _ => 1

def marksAmong : List Node → Nat
  | [] => 0
  | node :: nodes => node.marks + marksAmong nodes

end

end HttpRoutes.Yaml
