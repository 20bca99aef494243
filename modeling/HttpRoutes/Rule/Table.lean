import HttpRoutes.Router.Matcher
import HttpRoutes.Rule.Document
import HttpRoutes.Settings.Table

/-!
# Route tables from rules

The bindings of a rule set are registered in document order, each under the
selector that names its operation.  One that cannot be registered ends the
matter or is left out, whichever the settings ask for; one that is dropped as a
duplicate does neither.
-/

namespace HttpRoutes

/-- Why a file yields no route table. -/
inductive TableError where
  | document (cause : DocumentError)
  | rules (cause : RuleError)
  | unregistered (spec : RouteSpec) (cause : RegisterError)
deriving DecidableEq

def TableError.chain : TableError → List String
  | .document cause => cause.chain
  | .rules cause => cause.chain
  | .unregistered spec cause =>
    [s!"failed to register {spec.method} {spec.template} for `{spec.selector}`",
      cause.message]

def RouteSpec.skippedEvent (spec : RouteSpec) (cause : RegisterError) : LogEvent :=
  .invalidSkipped spec.method spec.template spec.selector cause.message

/-- The builder after some registrations and the number of bindings that have
been left out. -/
structure TableProgress where
  builder : Builder String
  skipped : Nat

/-- Register bindings one after the other. -/
def registerSpecs (settings : TableSettings) (progress : TableProgress) :
    List RouteSpec → Logged (Except TableError TableProgress)
  | [] => ⟨[], .ok progress⟩
  | spec :: specs =>
    let (builder, registration) := progress.builder.register settings.duplicates
      spec.method spec.template spec.selector
    match registration.error?, settings.invalid with
    | none, _ =>
      (registerSpecs settings ⟨builder, progress.skipped⟩ specs).after
        registration.events
    | some cause, .abort => ⟨[], .error (.unregistered spec cause)⟩
    | some cause, .skip =>
      (registerSpecs settings ⟨builder, progress.skipped + 1⟩ specs).after
        [spec.skippedEvent cause]

/-- Build the matcher for a list of bindings. -/
def buildMatcher (settings : TableSettings) (specs : List RouteSpec) :
    Logged (Except TableError (Matcher String)) :=
  let registered := registerSpecs settings ⟨.empty, 0⟩ specs
  match registered.result with
  | .error error => ⟨registered.events, .error error⟩
  | .ok ⟨builder, skipped⟩ =>
    let table := builder.build
    ⟨registered.events ++ [.tableRegistered builder.size skipped, table.builtEvent],
      .ok table⟩

/-- Read a file of rules and build the matcher for it. -/
def readMatcher (settings : TableSettings) (path : String)
    (content : Except FileError String) :
    Logged (Except TableError (Matcher String)) :=
  match RuleSet.ofFile path content with
  | .error cause => ⟨[], .error (.document cause)⟩
  | .ok rules =>
    match rules.routes with
    | .error cause => ⟨[], .error (.rules cause)⟩
    | .ok specs => buildMatcher settings specs

/-- The matcher for a file of rules. -/
def loadMatcher (settings : TableSettings) (path : String)
    (content : Except FileError String) : Except TableError (Matcher String) :=
  (readMatcher settings path content).result

/-- What a lookup reports in a table that is built with these settings, if it
takes so many nanoseconds. -/
def TableSettings.lookupEvents {α : Type} (settings : TableSettings)
    (table : Matcher α) (elapsed : Nat) (method path : String) : List LogEvent :=
  table.lookupEvents settings.slowLookup elapsed method path

end HttpRoutes
