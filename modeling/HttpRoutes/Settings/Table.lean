import HttpRoutes.Router.Builder
import HttpRoutes.Settings.Environment

/-!
# Settings for route tables

What becomes of routes that conflict and of routes that cannot be registered,
and from how many microseconds on a lookup counts as slow.
-/

namespace HttpRoutes

/-- What to do with a binding that cannot be registered. -/
inductive InvalidPolicy where
  | abort
  | skip
deriving DecidableEq

/-- The policy with this name.  All other names stand for `reject`. -/
def DuplicatePolicy.ofName (name : String) : DuplicatePolicy :=
  let name := lowered name
  if name = "keep-first" || name = "keep_first" then .keepFirst else .reject

/-- The policy with this name.  All other names stand for `abort`. -/
def InvalidPolicy.ofName (name : String) : InvalidPolicy :=
  if lowered name = "skip" then .skip else .abort

structure TableSettings where
  duplicates : DuplicatePolicy
  invalid : InvalidPolicy
  slowLookup : Nat
deriving DecidableEq

namespace TableSettings

/-- The names of the settings in the environment. -/
def names : List String :=
  ["PATHMATCHER_DUPLICATE_POLICY", "PATHMATCHER_INVALID_ROUTES",
    "PATHMATCHER_SLOW_LOOKUP_US"]

def default : TableSettings := ⟨.reject, .abort, 1000⟩

def ofEnvironment (env : Environment) : TableSettings where
  duplicates :=
    ((env.get? "PATHMATCHER_DUPLICATE_POLICY").map DuplicatePolicy.ofName).getD
      default.duplicates
  invalid :=
    ((env.get? "PATHMATCHER_INVALID_ROUTES").map InvalidPolicy.ofName).getD
      default.invalid
  slowLookup :=
    ((env.get? "PATHMATCHER_SLOW_LOOKUP_US").bind microseconds?).getD
      default.slowLookup

end TableSettings
end HttpRoutes
