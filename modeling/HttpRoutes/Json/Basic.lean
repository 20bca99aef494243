/-!
# JSON values

A string may hold an escape that names half of a surrogate pair on its own.
Such a string has no text, which does not matter as long as nobody asks for it,
so the text of a string and of a member's name is optional.
-/

namespace HttpRoutes

inductive Json where
  | null
  | bool (value : Bool)
  | number (digits : String)
  | string (text : Option String)
  | array (items : List Json)
  | object (members : List (Option String × Json))

namespace Json

def ofText (text : String) : Json := .string (some text)

/-- A member of an object, its name being given. -/
def member (name : String) (value : Json) : Option String × Json :=
  (some name, value)

def text? : Json → Option String
  | .string text => text
  | _ => none

mutual

/-- How deep arrays and objects are nested. -/
def nesting : Json → Nat
  | .array items => nestingOfItems items + 1
  | .object members => nestingOfMembers members + 1
  | _ => 0

def nestingOfItems : List Json → Nat
  | [] => 0
  | item :: items => max item.nesting (nestingOfItems items)

def nestingOfMembers : List (Option String × Json) → Nat
  | [] => 0
  | (_, value) :: members => max value.nesting (nestingOfMembers members)

end

end Json
end HttpRoutes
