import HttpRoutes.Template.Parser

/-!
# Field names in camel case

The names of all field paths of a template are written in camel case: leading
underscores stay, every other underscore goes and the letter after it becomes a
capital.  A brace of a template always opens a variable, and its field path ends
at the first `=` or closing brace, so one pass over the text is enough.
-/

namespace HttpRoutes.Projection

/-- Drop underscores; the character after one becomes a capital. -/
def capitalize (next : Bool) : List Char → List Char
  | [] => []
  | c :: cs =>
    if c = '_' then capitalize true cs
    else (if next then c.toUpper else c) :: capitalize false cs

def camelName (name : List Char) : List Char :=
  name.takeWhile (· = '_') ++ capitalize false (name.dropWhile (· = '_'))

/-- Convert a text.  Inside a field path, `name` holds what has been read of the
current name. -/
def camelChars (name : Option (List Char)) : List Char → List Char
  | [] => (name.map camelName).getD []
  | c :: cs =>
    match name with
    | none => c :: camelChars (if c = '{' then some [] else none) cs
    | some name =>
      if c = '=' || c = '}' then camelName name ++ c :: camelChars none cs
      else if c = '.' then camelName name ++ '.' :: camelChars (some []) cs
      else camelChars (some (name ++ [c])) cs

/-- Write every field name of a template in camel case. -/
def camelCase (text : String) : Except ParseError String :=
  match Template.parse text with
  | .error error => .error error
  | .ok _ => .ok (String.ofList (camelChars none text.toList))

end HttpRoutes.Projection
