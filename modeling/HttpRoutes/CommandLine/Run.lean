import HttpRoutes.CommandLine.Command
import HttpRoutes.Json.Printer
import HttpRoutes.Projection.CamelCase
import HttpRoutes.Projection.Regex
import HttpRoutes.Projection.Rename
import HttpRoutes.Rule.Table
import HttpRoutes.Text.Trim

/-!
# Running commands

A command writes its output at once or fails with none.  Where a request finds
no route, the methods for which its path would have found one are told.
-/

namespace HttpRoutes

inductive CommandError where
  | table (cause : TableError)
  | invalidMethod (method : String)
  | notFound (method path : String) (allowed : List String)
  | misfit (range : Misfit)
  | template (cause : ParseError)
  | nothingToRename
  | invalidPair (pair : String)
deriving DecidableEq

def CommandError.chain : CommandError → List String
  | .table cause => cause.chain
  | .invalidMethod method =>
    [s!"invalid HTTP method `{method}`", "invalid HTTP method"]
  | .notFound method path allowed =>
    let cause := (LookupError.notFound method path).message
    if allowed.isEmpty then [cause]
    else
      ["method not allowed; path accepts " ++ ", ".intercalate allowed, cause]
  | .misfit range => [range.message]
  | .template cause => [cause.message]
  | .nothingToRename => ["rename needs --map old=new or --camel"]
  | .invalidPair pair => [s!"invalid rename `{pair}`, expected old=new"]

/-- A text followed by blanks up to a width. -/
def padded (width : Nat) (text : String) : String :=
  text ++ String.ofList (List.replicate (width - text.length) ' ')

/-- A route with its operation, as one line. -/
def Route.line (route : Route String) : String :=
  s!"{padded 7 route.method} {route.pattern} -> {route.operation}\n"

/-- A match with its variables sorted by name. -/
def Match.toJson (path : String) (found : Match String) : Json :=
  let values := found.values.mergeSort fun a b => decide (a.1 ≤ b.1)
  .object [Json.member "method" (.ofText found.route.method),
    Json.member "path" (.ofText path),
    Json.member "selector" (.ofText found.route.operation),
    Json.member "template" (.ofText found.route.pattern),
    Json.member "variables"
      (.object (values.map fun (name, raw) => Json.member name (.ofText raw)))]

/-- The pair of names around an equals sign. -/
def renamePair? (text : String) : Option (String × String) :=
  (Text.splitFirst? '=' text.toList).map fun (source, target) =>
    (String.ofList (Text.trim source), String.ofList (Text.trim target))

/-- The pairs of names in a list of texts. -/
def renamePairs : List String → Except CommandError (List (String × String))
  | [] => .ok []
  | text :: texts =>
    match renamePair? text with
    | none => .error (.invalidPair text)
    | some pair => (renamePairs texts).map (pair :: ·)

/-- Look a request up and write what has been found. -/
def Matcher.report (table : Matcher String) (method path : String) :
    Except CommandError String :=
  if isMethodToken method then
    match table.lookup method path with
    | .ok found => .ok ((found.toJson path).pretty ++ "\n")
    | .error (.notFound _ _) =>
      .error (.notFound method path (table.allowedMethods path))
    | .error (.misfit range) => .error (.misfit range)
  else
    .error (.invalidMethod method)

namespace Command

/-- The file of rules that a command reads. -/
def rules? : Command → Option String
  | .check rules => some rules
  | .routes rules => some rules
  | .lookup rules _ _ => some rules
  | _ => none

/-- The output of a command.  `read` gives the text of a file. -/
def run (settings : TableSettings) (read : String → Except FileError String) :
    Command → Except CommandError String
  | .check rules =>
    match loadMatcher settings rules (read rules) with
    | .error cause => .error (.table cause)
    | .ok table => .ok s!"OK: {table.size} routes registered from {rules}\n"
  | .routes rules =>
    match loadMatcher settings rules (read rules) with
    | .error cause => .error (.table cause)
    | .ok table => .ok (String.join (table.routes.map Route.line))
  | .lookup rules method path =>
    match loadMatcher settings rules (read rules) with
    | .error cause => .error (.table cause)
    | .ok table => table.report method path
  | .regex template =>
    match Template.parse template with
    | .error cause => .error (.template cause)
    | .ok parsed =>
      match parsed.regex? with
      | some expression => .ok (expression.anchoredText ++ "\n")
      | none => .ok s!"{template} is fully literal; no regex needed\n"
  | .rename template _ true =>
    match Projection.camelCase template with
    | .error cause => .error (.template cause)
    | .ok renamed => .ok (renamed ++ "\n")
  | .rename template texts false =>
    if texts.isEmpty then .error .nothingToRename
    else
      (renamePairs texts).map fun pairs => Projection.rename pairs template ++ "\n"

end Command
end HttpRoutes
