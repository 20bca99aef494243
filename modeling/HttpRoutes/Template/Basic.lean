/-!
# Path templates

A template describes a family of request paths: a sequence of segments and,
optionally, a custom verb.  A segment is either plain (a literal text, `*`
for one segment, `**` for all that remain) or a variable, which names a field
and spans one or more plain elements.

Variables never influence what a template matches.  They annotate positions of
the flattened template, which is the list of plain elements with every variable
replaced by its pattern.
-/

namespace HttpRoutes

/-- A plain element of a template. -/
inductive Element where
  | literal (text : String)
  | any
  | rest
deriving DecidableEq

/-- The names leading to a field, outermost first. -/
structure FieldPath where
  components : List String
deriving DecidableEq

structure Variable where
  path : FieldPath
  pattern : List Element
deriving DecidableEq

inductive Segment where
  | plain (element : Element)
  | variable (var : Variable)
deriving DecidableEq

structure Template where
  segments : List Segment
  verb : Option String
deriving DecidableEq

/-- A variable spans several segments as soon as its pattern has several
elements or holds a `**`. -/
def Variable.isMultiSegment (var : Variable) : Bool :=
  1 < var.pattern.length || var.pattern.contains .rest

/-- The plain elements a segment stands for. -/
def Segment.elements : Segment → List Element
  | .plain element => [element]
  | .variable var => var.pattern

def Segment.var? : Segment → Option Variable
  | .plain _ => none
  | .variable var => some var

def Segment.isLiteral : Segment → Bool
  | .plain (.literal _) => true
  | _ => false

namespace Template

def vars (template : Template) : List Variable :=
  template.segments.filterMap Segment.var?

/-- Matching a dynamic template needs more than comparing texts. -/
def isDynamic (template : Template) : Bool :=
  template.segments.any fun segment => !segment.isLiteral

def flatten (template : Template) : List Element :=
  template.segments.flatMap Segment.elements

end Template

@[simp] theorem Segment.elements_plain (element : Element) :
    (Segment.plain element).elements = [element] := rfl

@[simp] theorem Segment.elements_variable (var : Variable) :
    (Segment.variable var).elements = var.pattern := rfl

@[simp] theorem Segment.var?_plain (element : Element) :
    (Segment.plain element).var? = none := rfl

@[simp] theorem Segment.var?_variable (var : Variable) :
    (Segment.variable var).var? = some var := rfl

end HttpRoutes
