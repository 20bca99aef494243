import HttpRoutes.Text.Split

/-!
# Paths of files

A path is cut into components at its slashes.  The last component names the
file; empty components and `.` behind it do not count.  A name has an extension
if there is a dot in it after its first character.
-/

namespace HttpRoutes.FilePath

/-- The pieces of a path between its slashes. -/
def pieces (path : String) : List String :=
  (Text.splitOn '/' path.toList).map String.ofList

/-- Whether a piece of a path stands for the directory itself. -/
def isSame (piece : String) : Bool := piece = "" || piece = "."

/-- The name of the file that a path leads to. -/
def fileName? (path : String) : Option String :=
  ((pieces path).filter (!isSame ·)).getLast?.filter (· != "..")

/-- What follows the last dot of the file's name. -/
def extension? (path : String) : Option String := do
  let name ← fileName? path
  let (stem, extension) ← Text.splitLast? '.' name.toList
  if stem.isEmpty then none else some (String.ofList extension)

end HttpRoutes.FilePath
