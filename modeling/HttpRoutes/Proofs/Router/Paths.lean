import HttpRoutes.Router.Trie

/-!
# Paths in a trie

A path is followed to its end, where a pattern is followed to its first `**`
only.  Paths have the simpler laws: an update at the end of one path changes what
is bound there and nowhere else, whether there is a `**` on the way or not.

The shape of a template is its flattened form cut right after the first `**`.
As a path it leads to the node that the flattened form leads to as a pattern, so
the laws of paths carry over to patterns.
-/

namespace HttpRoutes

/-- The part of a list of elements up to and including its first `**`. -/
def cutAfterRest : List Element → List Element
  | [] => []
  | .rest :: _ => [.rest]
  | element :: elements => element :: cutAfterRest elements

def Template.shape (template : Template) : List Element :=
  cutAfterRest template.flatten

@[simp] theorem cutAfterRest_nil : cutAfterRest [] = [] := rfl

@[simp] theorem cutAfterRest_rest (elements : List Element) :
    cutAfterRest (.rest :: elements) = [.rest] := rfl

@[simp] theorem cutAfterRest_literal (text : String) (elements : List Element) :
    cutAfterRest (.literal text :: elements) =
      .literal text :: cutAfterRest elements := rfl

@[simp] theorem cutAfterRest_any (elements : List Element) :
    cutAfterRest (.any :: elements) = .any :: cutAfterRest elements := rfl

namespace Trie

/-- The node that a list of elements leads to. -/
def find? : List Element → Trie → Option Trie
  | [], trie => some trie
  | element :: path, trie => (trie.child? element).bind (find? path)

/-- Change what is bound at the end of `path`, creating the nodes on the way. -/
def update (change : Candidates → Candidates) : List Element → Trie → Trie
  | [], .node bound children => .node (change bound) children
  | element :: path, .node bound children =>
    .node bound
      (children.put element
        (update change path ((children.child? element).getD empty)))

/-- The routes bound for `slot` at the end of `path`. -/
def routesAt (path : List Element) (slot : Slot) (trie : Trie) : List Nat :=
  match trie.find? path with
  | none => []
  | some found => found.bound.routesFor slot

/-! ## Updating a trie -/

def boundAt (path : List Element) (trie : Trie) : Candidates :=
  (trie.find? path).elim [] bound

theorem routesAt_eq (path : List Element) (slot : Slot) (trie : Trie) :
    trie.routesAt path slot = Candidates.routesFor slot (trie.boundAt path) := by
  unfold routesAt boundAt
  cases trie.find? path <;> rfl

theorem boundAt_cons (element : Element) (path : List Element) (trie : Trie) :
    trie.boundAt (element :: path) =
      ((trie.child? element).getD empty).boundAt path := by
  unfold boundAt
  rw [find?]
  cases trie.child? element with
  | some child => rfl
  | none =>
      cases path with
      | nil => rfl
      | cons other path => rfl

/-- Changing what is bound at the end of one path changes nothing elsewhere. -/
theorem boundAt_update (change : Candidates → Candidates)
    (path other : List Element) (trie : Trie) :
    (trie.update change path).boundAt other =
      if path = other then change (trie.boundAt path)
      else trie.boundAt other := by
  induction path generalizing other trie with
  | nil =>
      obtain ⟨bound, children⟩ := trie
      cases other with
      | nil => rfl
      | cons element other => rfl
  | cons element path ih =>
      obtain ⟨bound, children⟩ := trie
      cases other with
      | nil => rfl
      | cons element' other =>
          rw [update, boundAt_cons, boundAt_cons, boundAt_cons, child?,
            Branches.child?_put]
          by_cases helement : element = element'
          · subst element'
            simp [ih, child?]
          · simp [helement, child?]

theorem routesAt_update (slot slot' : Slot) (change : List Nat → List Nat)
    (path other : List Element) (trie : Trie) :
    (trie.update (Candidates.update slot change) path).routesAt other slot' =
      if path = other ∧ slot = slot' then change (trie.routesAt path slot)
      else trie.routesAt other slot' := by
  rw [routesAt_eq, boundAt_update, routesAt_eq, routesAt_eq]
  by_cases hpath : path = other
  · subst other
    by_cases hslot : slot = slot' <;>
      simp [hslot, Candidates.routesFor_update]
  · simp [hpath]

@[simp] theorem routesAt_empty (path : List Element) (slot : Slot) :
    empty.routesAt path slot = [] := by
  cases path with
  | nil => rfl
  | cons element path => rfl

/-! ## Patterns -/

/-- Following a pattern is following its front part through the first `**` to
the end. -/
theorem getPath?_eq (pattern : List Element) (trie : Trie) :
    trie.getPath? pattern = trie.find? (cutAfterRest pattern) := by
  induction pattern generalizing trie with
  | nil => rfl
  | cons element pattern ih =>
      have hbelow : getPath? pattern = find? (cutAfterRest pattern) := funext ih
      cases element with
      | literal text => simp only [getPath?, cutAfterRest_literal, find?, hbelow]
      | any => simp only [getPath?, cutAfterRest_any, find?, hbelow]
      | rest =>
          rw [getPath?, cutAfterRest_rest, find?]
          cases trie.child? .rest <;> rfl

theorem insertPath_eq (change : Candidates → Candidates) (pattern : List Element)
    (trie : Trie) :
    trie.insertPath change pattern =
      trie.update change (cutAfterRest pattern) := by
  induction pattern generalizing trie with
  | nil => cases trie; rfl
  | cons element pattern ih =>
      obtain ⟨bound, children⟩ := trie
      cases element with
      | literal text => simp only [insertPath, cutAfterRest_literal, update, ih]
      | any => simp only [insertPath, cutAfterRest_any, update, ih]
      | rest =>
          rw [insertPath, cutAfterRest_rest, update]
          cases (children.child? .rest).getD empty
          rfl

theorem routesOf_eq (pattern : List Element) (slot : Slot) (trie : Trie) :
    trie.routesOf pattern slot = trie.routesAt (cutAfterRest pattern) slot := by
  rw [routesOf, getPath?_eq, routesAt]
  cases trie.find? (cutAfterRest pattern) <;> rfl

end Trie
end HttpRoutes
