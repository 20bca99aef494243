import HttpRoutes.Text.Alphanumeric
import HttpRoutes.Text.Digits
import HttpRoutes.Text.Split
import HttpRoutes.Text.Trim

/-!
# Filters of log events

A filter is a set of directives.  A directive lets events pass from a level on,
for one target or, if it names none, for all.  A directive takes the place of an
earlier one for the same target.
-/

namespace HttpRoutes

structure Directive where
  target : Option String
  level : String
deriving DecidableEq

/-- The levels, from the one that lets nothing pass on. -/
def filterLevels : List String :=
  ["off", "error", "warn", "info", "debug", "trace"]

/-- The level that a name in either case, or its number, stands for. -/
def filterLevel? (text : String) : Option String :=
  match Text.unsigned? text.toList with
  | some number => filterLevels[number]?
  | none => filterLevels.find? (· = text.toLower)

/-- The characters that a level or a target can begin with. -/
def startsTarget (c : Char) : Bool :=
  Text.isAlphanumeric c || c = '_' || c = ':' || c = '-'

namespace Directive

/-- A target's directive.  Without a level everything passes. -/
def ofTarget? (target level : String) : Option Directive :=
  if level.isEmpty then some ⟨some target, "trace"⟩
  else (filterLevel? level).map fun level => ⟨some target, level⟩

/-- Read a level, a target, or both with an equals sign in between.  White space
counts as part of them, and in front there can be some of a target without a
level only.  A target holds no bracket. -/
def ofText? (text : String) : Option Directive :=
  let cs := text.toList
  if !((Text.trim cs).head?.any startsTarget) then none
  else
    match Text.splitFirst? '=' cs with
    | none =>
      if cs.contains '[' then none
      else
        match filterLevel? text with
        | some level => some ⟨none, level⟩
        | none => ofTarget? text ""
    | some (target, level) =>
      if target.contains '[' || target.head?.any Text.isWhite then none
      else ofTarget? (String.ofList target) (String.ofList level)

def text (directive : Directive) : String :=
  match directive.target with
  | none => directive.level
  | some target => target ++ "=" ++ directive.level

end Directive

structure Filter where
  directives : List Directive
deriving DecidableEq

namespace Filter

/-- Add a directive in place of an earlier one for the same target. -/
def add (directive : Directive) (filter : Filter) : Filter :=
  ⟨directive :: filter.directives.filter (·.target != directive.target)⟩

/-- The entries of a list with commas in between. -/
def entries (text : String) : List String :=
  (Text.splitOn ',' text.toList).map String.ofList

/-- Read a list of directives.  Empty entries do not count. -/
def ofText? (text : String) : Option Filter := do
  let directives ← ((entries text).filter (· != "")).mapM Directive.ofText?
  pure (directives.foldl (fun filter directive => filter.add directive) ⟨[]⟩)

/-- Add those entries of a list that are directives. -/
def addEntries (text : String) (filter : Filter) : Filter :=
  (entries text).foldl (fun filter entry =>
    match Directive.ofText? (String.ofList (Text.trim entry.toList)) with
    | none => filter
    | some directive => filter.add directive) filter

/-- The texts of the directives, with commas in between. -/
def text (filter : Filter) : String :=
  ",".intercalate (filter.directives.map Directive.text)

/-- The entries of a filter's text, sorted.  A filter without directives has an
empty one. -/
def texts (filter : Filter) : List String :=
  (entries filter.text).mergeSort fun a b => decide (a ≤ b)

end Filter
end HttpRoutes
