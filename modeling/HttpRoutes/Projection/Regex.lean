import HttpRoutes.Template.Basic

/-!
# Templates as regular expressions

A template that is not fully literal projects to a regular expression over the
text of a path.  A literal becomes a slash and the text itself, `*` a slash and
one or more characters other than a slash, and `**` an optional slash followed
by anything on one line.

Expressions are kept as trees.  `text` writes one down, and `accepts` decides
whether one matches the whole of a text; `rests` collects what may remain after
a match of a leading part.
-/

namespace HttpRoutes

inductive CharClass where
  | exactly (c : Char)
  | notSlash
  | notNewline
deriving DecidableEq

def CharClass.accepts : CharClass → Char → Bool
  | .exactly c, d => c = d
  | .notSlash, d => d ≠ '/'
  | .notNewline, d => d ≠ '\n'

inductive Regex where
  | empty
  | one (chars : CharClass)
  | several (chars : CharClass)
  | many (chars : CharClass)
  | optional (body : Regex)
  | append (first second : Regex)
deriving DecidableEq

/-- Characters that have a meaning of their own in an expression. -/
def isRegexMeta (c : Char) : Bool :=
  "\\.+*?()|[]\x7b\x7d^$#&-~".toList.contains c

def CharClass.chars : CharClass → List Char
  | .exactly c => if isRegexMeta c then ['\\', c] else [c]
  | .notSlash => "[^/]".toList
  | .notNewline => ['.']

namespace Regex

/-- The written form. -/
def chars : Regex → List Char
  | .empty => []
  | .one k => k.chars
  | .several k => k.chars ++ ['+']
  | .many k => k.chars ++ ['*']
  | .optional body => "(?:".toList ++ body.chars ++ ")?".toList
  | .append first second => first.chars ++ second.chars

/-- The written form between the two anchors. -/
def anchoredText (r : Regex) : String := String.ofList ('^' :: r.chars ++ ['$'])

/-- What may remain after any number of characters of a class. -/
def manyRests (k : CharClass) : List Char → List (List Char)
  | [] => [[]]
  | c :: cs => (c :: cs) :: (if k.accepts c then manyRests k cs else [])

/-- What may remain of a text after a match of its leading part. -/
def rests : Regex → List Char → List (List Char)
  | .empty, cs => [cs]
  | .one _, [] => []
  | .one k, c :: cs => if k.accepts c then [cs] else []
  | .several _, [] => []
  | .several k, c :: cs => if k.accepts c then manyRests k cs else []
  | .many k, cs => manyRests k cs
  | .optional body, cs => cs :: body.rests cs
  | .append first second, cs => (first.rests cs).flatMap second.rests

/-- Whether the expression matches all of the text. -/
def accepts (r : Regex) (text : String) : Bool :=
  (r.rests text.toList).any List.isEmpty

def literal : List Char → Regex
  | [] => .empty
  | c :: cs => .append (.one (.exactly c)) (literal cs)

end Regex

def slash : Regex := .one (.exactly '/')

def Element.regex : Element → Regex
  | .literal text => .append slash (.literal text.toList)
  | .any => .append slash (.several .notSlash)
  | .rest => .optional (.append slash (.many .notNewline))

def elementsRegex : List Element → Regex
  | [] => .empty
  | element :: elements => .append element.regex (elementsRegex elements)

/-- The expression a template projects to; the verb has no part in it.  A fully
literal template needs none. -/
def Template.regex? (template : Template) : Option Regex :=
  if template.isDynamic then some (elementsRegex template.flatten) else none

end HttpRoutes
