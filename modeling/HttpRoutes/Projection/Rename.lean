/-!
# Renaming fields in a template text

A name stands in a field path where the character before it is `{` or `.` and
the one after it is `}`, `.` or `=`.  Each name of a renaming is looked for in
the text as it was given, once, and is replaced where it is found first.  Of
several places that overlap the earliest is replaced, and of those that begin
together the longest, so no name is renamed twice.

The text need not be a template.
-/

namespace HttpRoutes.Projection

/-- A renaming in which every name occurs once: later pairs replace earlier
ones for the same name. -/
def dedupNames : List (String × String) → List (String × String)
  | [] => []
  | (source, target) :: pairs =>
    if pairs.any fun pair => pair.1 = source then dedupNames pairs
    else (source, target) :: dedupNames pairs

def opensName (c : Option Char) : Bool := c = some '{' || c = some '.'

def closesName (c : Option Char) : Bool :=
  c = some '}' || c = some '.' || c = some '='

/-- The offset of the first occurrence of `name` that stands in a field path,
among those found from left to right without overlap.  `skip` characters belong
to an occurrence already looked at. -/
def nameOffset? (name : List Char) (skip : Nat) (before : Option Char)
    (offset : Nat) : List Char → Option Nat
  | [] => none
  | c :: cs =>
    match skip with
    | skip + 1 => nameOffset? name skip (some c) (offset + 1) cs
    | 0 =>
      if name.isPrefixOf (c :: cs) then
        if opensName before && closesName (c :: cs)[name.length]? then
          some offset
        else
          nameOffset? name (name.length - 1) (some c) (offset + 1) cs
      else
        nameOffset? name 0 (some c) (offset + 1) cs

/-- The place of a name to be replaced. -/
structure Edit where
  offset : Nat
  source : List Char
  target : List Char

def Edit.stop (edit : Edit) : Nat := edit.offset + edit.source.length

/-- Earlier edits come first, and longer ones of those that begin together. -/
def Edit.precedes (a b : Edit) : Bool :=
  a.offset < b.offset || (a.offset = b.offset && b.source.length ≤ a.source.length)

def edit? (text : List Char) (pair : String × String) : Option Edit :=
  let source := pair.1.toList
  if source.isEmpty then none
  else (nameOffset? source 0 none 0 text).map fun offset =>
    ⟨offset, source, pair.2.toList⟩

/-- Apply edits in order, leaving out those that begin before `copied`. -/
def applyEdits (text : List Char) (copied : Nat) : List Edit → List Char
  | [] => text.drop copied
  | edit :: edits =>
    if edit.offset < copied then
      applyEdits text copied edits
    else
      (text.drop copied).take (edit.offset - copied) ++
        edit.target ++ applyEdits text edit.stop edits

/-- Rename the fields of a template text. -/
def rename (pairs : List (String × String)) (text : String) : String :=
  let edits := (dedupNames pairs).filterMap (edit? text.toList)
  String.ofList (applyEdits text.toList 0 (edits.mergeSort Edit.precedes))

end HttpRoutes.Projection
