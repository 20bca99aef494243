import HttpRoutes.Request.Method

/-!
# HTTP rules

A rule binds an operation, named by its selector, to a method and a template.
It has one field for each common method and a custom pattern for all others, of
which exactly one must be set.  Additional bindings are rules that share the
selector of the rule they stand in; they have none of their own.

A rule set lists its bindings in document order, each rule before its additional
bindings.
-/

namespace HttpRoutes

structure CustomPattern where
  kind : String
  path : String
deriving DecidableEq

structure HttpRule where
  selector : String
  get : Option String
  put : Option String
  post : Option String
  delete : Option String
  patch : Option String
  custom : Option CustomPattern
  body : Option String
  additionalBindings : List HttpRule

/-- The rule of which nothing is said. -/
def HttpRule.blank : HttpRule := ⟨"", none, none, none, none, none, none, none, []⟩

structure RuleSet where
  rules : List HttpRule

/-- A binding of a rule set, with the selector it has or inherits. -/
structure RouteSpec where
  method : String
  template : String
  selector : String
  body : Option String
deriving DecidableEq

/-- Why a rule has no single pattern. -/
inductive PatternError where
  | invalidKind (kind : String)
  | noPattern (selector : String)
  | severalPatterns (selector : String) (count : Nat)
deriving DecidableEq

/-- The messages of an error, from the outermost to its innermost cause. -/
def PatternError.chain : PatternError → List String
  | .invalidKind kind =>
    [s!"invalid custom method kind `{kind}`", "invalid HTTP method"]
  | .noPattern selector => [s!"rule `{selector}` has no HTTP pattern"]
  | .severalPatterns selector count =>
    [s!"rule `{selector}` has {count} HTTP patterns, expected one"]

/-- Why a rule set has no list of bindings. -/
inductive RuleError where
  | noSelector
  | nestedBindings (selector : String)
  | invalidRule (selector : String) (cause : PatternError)
deriving DecidableEq

def RuleError.chain : RuleError → List String
  | .noSelector => ["HTTP rule without selector"]
  | .nestedBindings selector =>
    [s!"rule `{selector}`: additional bindings may not nest"]
  | .invalidRule selector cause =>
    s!"invalid HTTP rule for `{selector}`" :: cause.chain

namespace HttpRule

/-- The patterns under the fields for common methods. -/
def commonPatterns (rule : HttpRule) : List (String × String) :=
  [("GET", rule.get), ("PUT", rule.put), ("POST", rule.post),
    ("DELETE", rule.delete), ("PATCH", rule.patch)].filterMap
    fun (method, path) => path.map fun path => (method, path)

/-- The method and template of a rule. -/
def pattern (rule : HttpRule) : Except PatternError (String × String) :=
  match rule.custom with
  | none => single rule.commonPatterns
  | some custom =>
    if isMethodToken custom.kind then
      single (rule.commonPatterns ++ [(custom.kind, custom.path)])
    else
      .error (.invalidKind custom.kind)
where
  single : List (String × String) → Except PatternError (String × String)
    | [] => .error (.noPattern rule.selector)
    | [pattern] => .ok pattern
    | patterns => .error (.severalPatterns rule.selector patterns.length)

def spec (selector : String) (rule : HttpRule) : Except RuleError RouteSpec :=
  match rule.pattern with
  | .error cause => .error (.invalidRule selector cause)
  | .ok (method, template) => .ok ⟨method, template, selector, rule.body⟩

/-- The bindings among the additional ones of a rule. -/
def additionalSpecs (selector : String) :
    List HttpRule → Except RuleError (List RouteSpec)
  | [] => .ok []
  | rule :: rules => do
    if !rule.additionalBindings.isEmpty then
      throw (.nestedBindings selector)
    let spec ← rule.spec selector
    let specs ← additionalSpecs selector rules
    pure (spec :: specs)

/-- The bindings of a rule, its own first. -/
def specs (rule : HttpRule) : Except RuleError (List RouteSpec) := do
  if rule.selector.isEmpty then
    throw .noSelector
  let spec ← rule.spec rule.selector
  let specs ← additionalSpecs rule.selector rule.additionalBindings
  pure (spec :: specs)

end HttpRule

/-- The bindings of a list of rules, in document order. -/
def specsOfRules : List HttpRule → Except RuleError (List RouteSpec)
  | [] => .ok []
  | rule :: rules => do
    let specs ← rule.specs
    let others ← specsOfRules rules
    pure (specs ++ others)

def RuleSet.routes (rules : RuleSet) : Except RuleError (List RouteSpec) :=
  specsOfRules rules.rules

end HttpRoutes
