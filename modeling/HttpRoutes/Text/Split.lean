/-!
# Splitting texts

Splitting a text at every occurrence of a character, at the first one and at
the last one.
-/

namespace HttpRoutes.Text

/-- The pieces between the separators.  There is always one more piece than
there are separators, so an empty text is one empty piece. -/
def splitOn (separator : Char) : List Char → List (List Char)
  | [] => [[]]
  | c :: cs =>
    if c = separator then
      [] :: splitOn separator cs
    else
      match splitOn separator cs with
      | [] => [[c]]
      | piece :: pieces => (c :: piece) :: pieces

/-- What stands before and after the first separator. -/
def splitFirst? (separator : Char) : List Char → Option (List Char × List Char)
  | [] => none
  | c :: cs =>
    if c = separator then
      some ([], cs)
    else
      (splitFirst? separator cs).map fun (before, after) => (c :: before, after)

/-- What stands before and after the last separator. -/
def splitLast? (separator : Char) : List Char → Option (List Char × List Char)
  | [] => none
  | c :: cs =>
    match splitLast? separator cs with
    | some (before, after) => some (c :: before, after)
    | none => if c = separator then some ([], cs) else none

@[simp] theorem splitOn_nil (separator : Char) : splitOn separator [] = [[]] := rfl

theorem splitOn_ne_nil (separator : Char) (cs : List Char) :
    splitOn separator cs ≠ [] := by
  cases cs with
  | nil => simp
  | cons c cs =>
      unfold splitOn
      split
      · simp
      · split <;> simp

end HttpRoutes.Text
