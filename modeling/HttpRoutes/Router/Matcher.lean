import HttpRoutes.Request.Path
import HttpRoutes.Router.Builder
import HttpRoutes.Text.Percent
import HttpRoutes.Text.Quoted

/-!
# Matching requests

A matcher is a finished route table.  A request is first matched with the verb
of its last segment taken off, provided that some route has that verb, against
the routes with that verb; then as it stands against the routes without one.
The route is selected before its variables are captured, and only capturing can
fail.
-/

namespace HttpRoutes

structure Matcher (α : Type) where
  routes : List (Route α)
  trie : Trie
  verbs : List String

def Builder.build {α : Type} (builder : Builder α) : Matcher α :=
  ⟨builder.routes, builder.trie, builder.verbs⟩

/-- A selected route with the segments to capture its variables from. -/
structure Selection (α : Type) where
  route : Route α
  segments : List String
deriving DecidableEq

/-- A matched route with the raw values of its variables, in template order. -/
structure Match (α : Type) where
  route : Route α
  values : List (String × String)
deriving DecidableEq

/-- Why a request gets no match. -/
inductive LookupError where
  | notFound (method path : String)
  | misfit (range : Misfit)
deriving DecidableEq

def LookupError.message : LookupError → String
  | .notFound method path => s!"no route matches {method} {path}"
  | .misfit range => range.message

namespace Match

variable {α : Type}

/-- The raw value of a field. -/
def get? (found : Match α) (field : String) : Option String :=
  (found.values.find? fun entry => entry.1 = field).map Prod.snd

/-- The decoded value of a field.  Where a value may hold several segments, an
encoded slash stays encoded. -/
def decoded? (found : Match α) (field : String) : Option String := do
  let raw ← found.get? field
  if found.route.bindings.any fun b => b.isMultiSegment && b.field = field then
    Percent.decodeKeepingSlashes raw
  else
    Percent.decode raw

end Match

namespace Matcher

variable {α : Type}

def size (table : Matcher α) : Nat := table.routes.length

/-- The first routes, by method and pattern. -/
def summary (table : Matcher α) : List String :=
  (table.routes.take 10).map fun route => s!"{route.method} {route.pattern}"

/-- What building the matcher reports. -/
def builtEvent (table : Matcher α) : LogEvent :=
  .matcherBuilt table.size table.verbs.length table.trie.nodeCount table.summary

/-- The preferred route for a slot among those that match the segments. -/
def find? (table : Matcher α) (slot : Slot) (segments : List String) :
    Option (Selection α) := do
  let index ← table.trie.search (fun node => (node.bound.routesFor slot).head?)
    segments
  let route ← table.routes[index]?
  pure ⟨route, segments⟩

/-- The route selected for a request. -/
def select? (table : Matcher α) (method path : String) : Option (Selection α) :=
  let segments := requestSegments path
  ((splitVerb table.verbs segments).bind fun (stripped, verb) =>
    table.find? ⟨method, some verb⟩ stripped).or
  (table.find? ⟨method, none⟩ segments)

/-- Match a request.  A method that is no token matches nothing. -/
def lookup (table : Matcher α) (method path : String) :
    Except LookupError (Match α) :=
  match if isMethodToken method then table.select? method path else none with
  | none => .error (.notFound method path)
  | some selection =>
    match captures selection.segments selection.route.bindings with
    | .error range => .error (.misfit range)
    | .ok values => .ok ⟨selection.route, values⟩

/-- What a lookup reports that takes `elapsed` nanoseconds, where more than
`slow` microseconds are too many.  A method that is no token is not looked up,
and a lookup that cannot capture ends before it reports. -/
def lookupEvents (table : Matcher α) (slow elapsed : Nat) (method path : String) :
    List LogEvent :=
  if isMethodToken method then
    match table.lookup method path with
    | .ok found =>
      if 1000 * slow < elapsed then
        [.slowMatch method path found.route.pattern (elapsed / 1000)]
      else
        [.routeMatched method path found.route.pattern found.values
          (elapsed / 1000)]
    | .error (.notFound ..) => [.nothingMatched method path (elapsed / 1000)]
    | .error (.misfit _) => []
  else []

/-- A lookup gives a warning exactly if it finds a route and takes too long. -/
theorem exists_warning_iff (table : Matcher α) (slow elapsed : Nat)
    (method path : String) :
    (∃ event ∈ table.lookupEvents slow elapsed method path,
        event.level = .warn) ↔
      1000 * slow < elapsed ∧ ∃ found, table.lookup method path = .ok found := by
  unfold lookupEvents
  cases hmethod : isMethodToken method with
  | false => simp [lookup, hmethod]
  | true =>
      cases table.lookup method path with
      | ok found =>
          by_cases hslow : 1000 * slow < elapsed <;>
            simp [hslow, LogEvent.level]
      | error error => cases error <;> simp [LogEvent.level]

/-- The methods that some route takes at the nodes where a request with these
segments can end. -/
def methodsAt (table : Matcher α) (verb : Option String) (segments : List String) :
    List String :=
  (table.trie.visits segments).flatMap fun node => node.bound.methods verb

/-- The methods with which the path would match, in order of their names. -/
def allowedMethods (table : Matcher α) (path : String) : List String :=
  let segments := requestSegments path
  let verbMethods :=
    match splitVerb table.verbs segments with
    | none => []
    | some (stripped, verb) => table.methodsAt (some verb) stripped
  ((verbMethods ++ table.methodsAt none segments).foldl
    (fun methods method => insertOnce method methods) []).mergeSort
      fun a b => decide (a ≤ b)

/-- A listing of all routes in registration order. -/
def listing (table : Matcher String) : String :=
  s!"[routes] count={table.size}\n" ++
    String.join (table.routes.map fun route =>
      s!"[route] {route.method} {route.pattern} -> {Text.quoted route.operation}\n")

end Matcher
end HttpRoutes
