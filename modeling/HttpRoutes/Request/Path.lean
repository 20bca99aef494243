import HttpRoutes.Text.Split

/-!
# Request paths

A request path counts up to its query or fragment.  Its segments are the texts
between slashes after the leading one; empty segments count, except that a path
with nothing after the leading slash has no segments at all.
-/

namespace HttpRoutes

def requestSegments (path : String) : List String :=
  let counted := path.toList.takeWhile fun c => c != '?' && c != '#'
  let tail :=
    match counted with
    | '/' :: tail => tail
    | other => other
  if tail.isEmpty then [] else (Text.splitOn '/' tail).map String.ofList

/-- Take one of `verbs` off the last segment.  The verb of a segment is what
follows its last colon. -/
def splitVerb (verbs : List String) (segments : List String) :
    Option (List String × String) := do
  let last ← segments.getLast?
  let (head, verb) ← Text.splitLast? ':' last.toList
  if String.ofList verb ∈ verbs then
    some (segments.dropLast ++ [String.ofList head], String.ofList verb)
  else
    none

end HttpRoutes
