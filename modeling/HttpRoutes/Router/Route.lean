import HttpRoutes.Template.Parser
import HttpRoutes.Template.Binding
import HttpRoutes.Router.Trie

/-!
# Routes

A route binds a method and a template to an operation of the caller's choice.
-/

namespace HttpRoutes

structure Route (α : Type) where
  method : String
  template : Template
  operation : α
deriving DecidableEq

namespace Route

variable {α : Type}

/-- The canonical text of the route's template. -/
def pattern (route : Route α) : String := route.template.text

def bindings (route : Route α) : List Binding := route.template.bindings

def verb (route : Route α) : Option String := route.template.verb

/-- Where the route is bound on the node that its template leads to. -/
def slot (route : Route α) : Slot := ⟨route.method, route.verb⟩

def variableCount (route : Route α) : Nat := route.bindings.length

end Route

def ParseError.message : ParseError → String
  | .malformed template offset reason =>
    s!"malformed template `{template}` at offset {offset}: {reason.message}"
  | .duplicateVariable template path =>
    s!"duplicate variable `{path.text}` in template `{template}`"

/-- Why a route cannot be registered. -/
inductive RegisterError where
  | invalidMethod (method : String)
  | parse (error : ParseError)
  | conflict (method pattern : String)
deriving DecidableEq

def RegisterError.message : RegisterError → String
  | .invalidMethod method => s!"invalid HTTP method `{method}`"
  | .parse error => error.message
  | .conflict method pattern =>
    s!"conflicting registration: {method} {pattern} is already bound"

end HttpRoutes
