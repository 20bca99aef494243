import HttpRoutes.Log.Event
import HttpRoutes.Request.Method
import HttpRoutes.Router.Route

/-!
# Registering routes

A builder collects routes.  A route conflicts with an earlier one that has the
same method and the same canonical text, and with one that is bound at the same
node for the same method and verb and has as many variables: of two such routes
the later could never be selected.  What happens then is up to the duplicate
policy; in either case the builder stays as it was.

The candidates of a slot are ordered by their number of variables, larger first,
and then by registration.
-/

namespace HttpRoutes

/-- What to do with a route that conflicts with an earlier one. -/
inductive DuplicatePolicy where
  | reject
  | keepFirst
deriving DecidableEq

structure Builder (α : Type) where
  /-- The routes in registration order. -/
  routes : List (Route α)
  trie : Trie
  /-- The method and canonical text of every route. -/
  registered : List (String × String)
  /-- The verbs of the routes, each once. -/
  verbs : List String

/-- What came of a registration. -/
inductive Registration where
  | added (method pattern : String) (varCount index : Nat)
  | dropped (method pattern existing : String)
  | refused (error : RegisterError)
deriving DecidableEq

def Registration.error? : Registration → Option RegisterError
  | .refused error => some error
  | _ => none

def Registration.events : Registration → List LogEvent
  | .added method pattern varCount index =>
    [.routeRegistered method pattern varCount index]
  | .dropped method pattern existing =>
    [.duplicateDropped method pattern existing]
  | .refused _ => []

/-- Add a text to a list that holds each text once. -/
def insertOnce (text : String) (texts : List String) : List String :=
  if text ∈ texts then texts else texts ++ [text]

namespace Builder

variable {α : Type}

def empty : Builder α := ⟨[], .empty, [], []⟩

def size (builder : Builder α) : Nat := builder.routes.length

/-- The number of variables of the route with this number. -/
def variableCount (routes : List (Route α)) (index : Nat) : Nat :=
  (routes[index]?.map Route.variableCount).getD 0

/-- Put a route behind those with at least as many variables. -/
def insertCandidate (count : Nat → Nat) (index : Nat) : List Nat → List Nat
  | [] => [index]
  | other :: others =>
    if count index ≤ count other then
      other :: insertCandidate count index others
    else
      index :: other :: others

/-- The earlier route that `route` conflicts with, by its canonical text. -/
def conflict? (builder : Builder α) (route : Route α) : Option String :=
  if (route.method, route.pattern) ∈ builder.registered then
    some route.pattern
  else do
    let index ← (builder.trie.routesOf route.template.flatten route.slot).find?
      fun index => variableCount builder.routes index = route.variableCount
    let existing ← builder.routes[index]?
    pure existing.pattern

/-- Add a route that conflicts with none. -/
def add (builder : Builder α) (route : Route α) : Builder α :=
  let routes := builder.routes ++ [route]
  { routes
    trie := builder.trie.insertPath
      (Candidates.update route.slot
        (insertCandidate (variableCount routes) builder.routes.length))
      route.template.flatten
    registered := builder.registered ++ [(route.method, route.pattern)]
    verbs :=
      match route.verb with
      | none => builder.verbs
      | some verb => insertOnce verb builder.verbs }

/-- Register a route for a method token and a template that are well formed. -/
def registerRoute (policy : DuplicatePolicy) (route : Route α)
    (builder : Builder α) : Builder α × Registration :=
  match builder.conflict? route with
  | none =>
    (builder.add route,
      .added route.method route.pattern route.variableCount builder.size)
  | some existing =>
    match policy with
    | .reject => (builder, .refused (.conflict route.method route.pattern))
    | .keepFirst => (builder, .dropped route.method route.pattern existing)

/-- Register `operation` for a method and a template.  The method is looked at
before the template. -/
def register (policy : DuplicatePolicy) (method template : String)
    (operation : α) (builder : Builder α) : Builder α × Registration :=
  if isMethodToken method then
    match Template.parse template with
    | .error error => (builder, .refused (.parse error))
    | .ok parsed => builder.registerRoute policy ⟨method, parsed, operation⟩
  else
    (builder, .refused (.invalidMethod method))

end Builder
end HttpRoutes
