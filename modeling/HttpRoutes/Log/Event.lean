import HttpRoutes.Text.Quoted

/-!
# Log events

What the library reports while it builds, publishes and reloads route tables and
while it matches requests.  An event is kept as what happened; its level, its
message and its fields are read off it.
-/

namespace HttpRoutes

inductive LogLevel where
  | debug
  | info
  | warn
  | error
deriving DecidableEq

def LogLevel.name : LogLevel → String
  | .debug => "DEBUG"
  | .info => "INFO"
  | .warn => "WARN"
  | .error => "ERROR"

inductive LogValue where
  | number (value : Nat)
  | text (value : String)
deriving DecidableEq

inductive LogEvent where
  | routeRegistered (method template : String) (varCount index : Nat)
  | duplicateDropped (method template existing : String)
  | invalidSkipped (method template selector error : String)
  | tableRegistered (routes skipped : Nat)
  /-- The summary names the first routes by method and pattern. -/
  | matcherBuilt (routes verbs nodes : Nat) (summary : List String)
  | matcherPublished (routes previous : Nat)
  | reloadApplied (path : String) (routes : Nat)
  | reloadEmpty (path : String)
  | reloadFailed (path error : String)
  | watchFailed (error : String)
  | routeMatched (method path template : String)
      (captured : List (String × String)) (micros : Nat)
  | slowMatch (method path template : String) (micros : Nat)
  | nothingMatched (method path : String) (micros : Nat)
deriving DecidableEq

namespace LogEvent

def level : LogEvent → LogLevel
  | routeRegistered .. => .debug
  | duplicateDropped .. => .warn
  | invalidSkipped .. => .warn
  | tableRegistered .. => .info
  | matcherBuilt .. => .info
  | matcherPublished .. => .info
  | reloadApplied .. => .info
  | reloadEmpty .. => .warn
  | reloadFailed .. => .error
  | watchFailed .. => .error
  | routeMatched .. => .debug
  | slowMatch .. => .warn
  | nothingMatched .. => .debug

def message : LogEvent → String
  | routeRegistered .. => "Registering route"
  | duplicateDropped .. =>
    "Duplicate route registration skipped, first registration wins"
  | invalidSkipped .. => "Skipping invalid route"
  | tableRegistered .. => "Route table registered"
  | matcherBuilt .. => "Path matcher built"
  | matcherPublished .. => "Published new path matcher"
  | reloadApplied .. => "hot-reload: applying route updates"
  | reloadEmpty .. =>
    "hot-reload: rule file has no routes, keeping previous route table"
  | reloadFailed .. => "hot-reload: keeping previous route table"
  | watchFailed .. => "hot-reload: watch error"
  | routeMatched .. => "Route matched"
  | slowMatch .. => "Slow route matching detected"
  | nothingMatched .. => "No route matched"

def fields : LogEvent → List (String × LogValue)
  | routeRegistered method template varCount index =>
    [("method", .text method), ("template", .text template),
      ("variables", .number varCount), ("route_index", .number index)]
  | duplicateDropped method template existing =>
    [("method", .text method), ("template", .text template),
      ("existing", .text existing)]
  | invalidSkipped method template selector error =>
    [("method", .text method), ("template", .text template),
      ("selector", .text selector), ("error", .text error)]
  | tableRegistered routes skipped =>
    [("routes_count", .number routes), ("skipped", .number skipped)]
  | matcherBuilt routes verbs nodes summary =>
    [("routes_count", .number routes), ("verbs_count", .number verbs),
      ("trie_nodes", .number nodes),
      ("routes_summary", .text (Text.bracketed (summary.map Text.quoted)))]
  | matcherPublished routes previous =>
    [("routes_count", .number routes),
      ("previous_routes_count", .number previous)]
  | reloadApplied path routes =>
    [("path", .text path), ("routes_count", .number routes)]
  | reloadEmpty path => [("path", .text path)]
  | reloadFailed path error => [("path", .text path), ("error", .text error)]
  | watchFailed error => [("error", .text error)]
  | routeMatched method path template captured micros =>
    [("method", .text method), ("path", .text path),
      ("template", .text template),
      ("variables", .text (Text.bracketed (captured.map Text.quotedPair))),
      ("duration_us", .number micros)]
  | slowMatch method path template micros =>
    [("method", .text method), ("path", .text path),
      ("template", .text template), ("duration_us", .number micros)]
  | nothingMatched method path micros =>
    [("method", .text method), ("path", .text path),
      ("duration_us", .number micros)]

end LogEvent

/-- A result together with what has been reported on the way. -/
structure Logged (α : Type) where
  events : List LogEvent
  result : α

namespace Logged

/-- Put events in front. -/
def after {α : Type} (events : List LogEvent) (logged : Logged α) : Logged α :=
  ⟨events ++ logged.events, logged.result⟩

@[simp] theorem events_after {α : Type} (events : List LogEvent) (logged : Logged α) :
    (logged.after events).events = events ++ logged.events := rfl

@[simp] theorem result_after {α : Type} (events : List LogEvent) (logged : Logged α) :
    (logged.after events).result = logged.result := rfl

end Logged
end HttpRoutes
