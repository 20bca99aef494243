import HttpRoutes.Template.Basic

/-!
# Writing templates

The canonical text of a template.  A variable that spans exactly one `*` is
written without its pattern; everything else is written out.
-/

namespace HttpRoutes

/-- Join pieces of text by one character. -/
def joinWith (separator : Char) : List (List Char) → List Char
  | [] => []
  | [piece] => piece
  | piece :: pieces => piece ++ separator :: joinWith separator pieces

def Element.chars : Element → List Char
  | .literal text => text.toList
  | .any => ['*']
  | .rest => ['*', '*']

def Element.text (element : Element) : String := String.ofList element.chars

def FieldPath.chars (path : FieldPath) : List Char :=
  joinWith '.' (path.components.map String.toList)

/-- The dotted form of a field path. -/
def FieldPath.text (path : FieldPath) : String := String.ofList path.chars

def Variable.chars (var : Variable) : List Char :=
  if var.pattern = [.any] then
    '{' :: var.path.chars ++ ['}']
  else
    '{' :: var.path.chars ++
      '=' :: joinWith '/' (var.pattern.map Element.chars) ++ ['}']

def Segment.chars : Segment → List Char
  | .plain element => element.chars
  | .variable var => var.chars

def Template.chars (template : Template) : List Char :=
  let path :=
    match template.segments with
    | [] => ['/']
    | segments => segments.flatMap fun segment => '/' :: segment.chars
  match template.verb with
  | none => path
  | some verb => path ++ ':' :: verb.toList

/-- The canonical text of a template. -/
def Template.text (template : Template) : String := String.ofList template.chars

end HttpRoutes
