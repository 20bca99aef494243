import HttpRoutes.Settings.Environment
import HttpRoutes.Settings.Filter

/-!
# Settings for the log

Which events are written, and in which form.
-/

namespace HttpRoutes

inductive LogFormat where
  | json
  | pretty
deriving DecidableEq

/-- The format with this name.  All other names stand for `json`. -/
def LogFormat.ofName (name : String) : LogFormat :=
  if lowered name = "pretty" then .pretty else .json

def LogFormat.name : LogFormat → String
  | .json => "json"
  | .pretty => "pretty"

structure LogSettings where
  /-- The directives that apply to all targets. -/
  level : String
  format : LogFormat
  /-- Whether events are written in the background. -/
  inBackground : Bool
  /-- Directives for single targets. -/
  targets : Option String
  /-- Whether events tell where in the program they come from. -/
  withLocation : Bool
deriving DecidableEq

namespace LogSettings

def ofEnvironment (env : Environment) : LogSettings where
  level := (env.get? "PATHMATCHER_LOG_LEVEL").getD "info"
  format := LogFormat.ofName ((env.get? "PATHMATCHER_LOG_FORMAT").getD "json")
  inBackground := env.get? "PATHMATCHER_LOG_ASYNC" = some "true"
  targets := env.get? "PATHMATCHER_LOG_TARGET_FILTER"
  withLocation := env.get? "PATHMATCHER_LOG_INCLUDE_LOCATION" = some "true"

/-- Settings for developing. -/
def development : LogSettings := ⟨"debug", .pretty, false, none, true⟩

/-- The filter for these settings.  A level that is none counts as `info`, and
entries for targets that are no directives are passed over. -/
def filter (settings : LogSettings) : Filter :=
  let levels := (Filter.ofText? settings.level).getD ⟨[⟨none, "info"⟩]⟩
  levels.addEntries (settings.targets.getD "")

end LogSettings
end HttpRoutes
