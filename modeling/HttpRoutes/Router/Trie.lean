import HttpRoutes.Template.Basic

/-!
# The route trie

Routes are kept in a trie over the elements of their patterns.  A node holds, for
each method and verb, the routes whose pattern leads there, and one child for
each element that continues some pattern.  A pattern is followed up to its first
`**`, so what leads to its node is its front part that ends there.

A request walks the trie segment by segment.  At every node it tries the child
for the segment's text, then the child for `*` unless the segment is empty, and
at last the child for `**`, which takes all that remain.  `visits` lists the
nodes where a request can end, in this order; `search` stops at the first of
them that is accepted.
-/

namespace HttpRoutes

/-- What a request asks of a node: a method and the verb taken off the path. -/
structure Slot where
  method : String
  verb : Option String
deriving DecidableEq

/-- The routes bound at a node, by number, for each slot that has any. -/
abbrev Candidates := List (Slot × List Nat)

namespace Candidates

def routesFor (slot : Slot) : Candidates → List Nat
  | [] => []
  | (other, routes) :: rest =>
    if other = slot then routes else Candidates.routesFor slot rest

/-- Change the list of one slot, which is empty at first. -/
def update (slot : Slot) (change : List Nat → List Nat) : Candidates → Candidates
  | [] => [(slot, change [])]
  | (other, routes) :: rest =>
    if other = slot then (other, change routes) :: rest
    else (other, routes) :: update slot change rest

/-- The methods that have a route bound with `verb`. -/
def methods (verb : Option String) : Candidates → List String
  | [] => []
  | (slot, routes) :: rest =>
    if slot.verb = verb && !routes.isEmpty then slot.method :: methods verb rest
    else methods verb rest

@[simp] theorem routesFor_nil (slot : Slot) : Candidates.routesFor slot [] = [] := rfl

theorem routesFor_update (slot other : Slot) (change : List Nat → List Nat)
    (table : Candidates) :
    Candidates.routesFor other (table.update slot change) =
      if slot = other then change (Candidates.routesFor slot table)
      else Candidates.routesFor other table := by
  induction table with
  | nil => simp [update, Candidates.routesFor]
  | cons entry rest ih =>
      by_cases hslot : entry.1 = slot
      · by_cases hother : slot = other
        · simp [update, Candidates.routesFor, hslot, hother]
        · simp [update, Candidates.routesFor, hslot, hother]
      · by_cases hother : slot = other
        · simp_all [update, Candidates.routesFor]
        · simp [update, Candidates.routesFor, hslot, hother, ih]

end Candidates

mutual

inductive Trie where
  | node (bound : Candidates) (children : Branches)

/-- The children of a node, each under the element that leads to it. -/
inductive Branches where
  | nil
  | cons (element : Element) (child : Trie) (others : Branches)

end

namespace Branches

def child? (element : Element) : Branches → Option Trie
  | .nil => none
  | .cons other child others =>
    if other = element then some child else others.child? element

/-- Put a child under an element, in place of the one that is there. -/
def put (element : Element) (child : Trie) : Branches → Branches
  | .nil => .cons element child .nil
  | .cons other old others =>
    if other = element then .cons other child others
    else .cons other old (others.put element child)

theorem child?_put (element other : Element) (child : Trie) (branches : Branches) :
    (branches.put element child).child? other =
      if element = other then some child else branches.child? other := by
  match branches with
  | .nil => simp [put, child?]
  | .cons first old others =>
      have ih := child?_put element other child others
      by_cases hfirst : first = element
      · by_cases hother : element = other
        · simp [put, child?, hfirst, hother]
        · simp [put, child?, hfirst, hother]
      · by_cases hother : element = other
        · simp_all [put, child?]
        · simp [put, child?, hfirst, hother, ih]

end Branches

namespace Trie

def empty : Trie := .node [] .nil

def bound : Trie → Candidates
  | .node bound _ => bound

def child? (element : Element) : Trie → Option Trie
  | .node _ children => children.child? element

/-- The node that a pattern leads to.  A `**` ends the way there, whatever stands
behind it. -/
def getPath? : List Element → Trie → Option Trie
  | [], trie => some trie
  | .rest :: _, trie => trie.child? .rest
  | element :: pattern, trie => (trie.child? element).bind (getPath? pattern)

def rebind (change : Candidates → Candidates) : Trie → Trie
  | .node bound children => .node (change bound) children

/-- Change what is bound at the node that a pattern leads to, creating the nodes
on the way. -/
def insertPath (change : Candidates → Candidates) : List Element → Trie → Trie
  | [], trie => trie.rebind change
  | .rest :: _, .node bound children =>
    .node bound
      (children.put .rest (((children.child? .rest).getD empty).rebind change))
  | element :: pattern, .node bound children =>
    .node bound
      (children.put element
        (insertPath change pattern ((children.child? element).getD empty)))

/-- The routes bound for `slot` at the node that a pattern leads to. -/
def routesOf (pattern : List Element) (slot : Slot) (trie : Trie) : List Nat :=
  (trie.getPath? pattern).elim [] fun node => node.bound.routesFor slot

/-- The nodes where a request with these segments can end, most specific
first. -/
def visits : List String → Trie → List Trie
  | [], trie => trie :: (trie.child? .rest).toList
  | segment :: segments, trie =>
    ((trie.child? (.literal segment)).elim [] (visits segments)) ++
      (if segment = "" then []
        else (trie.child? .any).elim [] (visits segments)) ++
      (trie.child? .rest).toList

/-- The first answer that `accept` gives on the nodes where a request with
these segments can end. -/
def search {α : Type} (accept : Trie → Option α) : List String → Trie → Option α
  | [], trie =>
    (accept trie).or ((trie.child? .rest).bind accept)
  | segment :: segments, trie =>
    match (trie.child? (.literal segment)).bind (search accept segments) with
    | some answer => some answer
    | none =>
      match
        if segment = "" then none
        else (trie.child? .any).bind (search accept segments) with
      | some answer => some answer
      | none => (trie.child? .rest).bind accept

end Trie

mutual

/-- The number of nodes, the root included. -/
def Trie.nodeCount : Trie → Nat
  | .node _ children => 1 + children.nodeCount

def Branches.nodeCount : Branches → Nat
  | .nil => 0
  | .cons _ child others => child.nodeCount + others.nodeCount

end

end HttpRoutes
