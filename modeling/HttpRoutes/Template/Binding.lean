import HttpRoutes.Template.Printer

/-!
# Where variables are bound

A binding records which positions of the flattened template a variable covers.
A request that matches the template has one segment at each position, up to a
`**` which takes all that remain, so the value of a variable is read off the
segments at its positions.

The positions fit every matching request as long as no variable follows a `**`.
Where one does, a short request leaves them out of range, and capturing answers
with the range that does not fit.
-/

namespace HttpRoutes

structure Binding where
  field : String
  start : Nat
  /-- The position after the last one, unless the variable runs to the end. -/
  stop : Option Nat
  isMultiSegment : Bool
deriving DecidableEq

/-- A recorded range that does not fit the segments of a request. -/
structure Misfit where
  field : String
  start : Nat
  stop : Nat
  segments : Nat
deriving DecidableEq

def Misfit.message (misfit : Misfit) : String :=
  s!"variable `{misfit.field}` bound to positions {misfit.start}..{misfit.stop} but the matched path has {misfit.segments} segments"

/-- The binding of a variable whose pattern begins at `position`. -/
def Variable.bindingAt (position : Nat) (var : Variable) : Binding where
  field := var.path.text
  start := position
  stop :=
    if var.pattern.getLast? = some .rest then none
    else some (position + var.pattern.length)
  isMultiSegment := var.isMultiSegment

/-- The bindings of the variables among `segments`, the first of which begins
at `position`. -/
def bindingsFrom (position : Nat) : List Segment → List Binding
  | [] => []
  | .plain _ :: segments => bindingsFrom (position + 1) segments
  | .variable var :: segments =>
    var.bindingAt position :: bindingsFrom (position + var.pattern.length) segments

def Template.bindings (template : Template) : List Binding :=
  bindingsFrom 0 template.segments

theorem bindingsFrom_cons (position : Nat) (segment : Segment)
    (segments : List Segment) :
    bindingsFrom position (segment :: segments) =
      (segment.var?.map (Variable.bindingAt position)).toList ++
        bindingsFrom (position + segment.elements.length) segments := by
  cases segment <;> rfl

/-- What the bindings take over from their variables, in the same order. -/
theorem map_bindingsFrom (position : Nat) (segments : List Segment) :
    (bindingsFrom position segments).map
        (fun binding => (binding.field, binding.isMultiSegment)) =
      (segments.filterMap Segment.var?).map fun var =>
        (var.path.text, var.isMultiSegment) := by
  induction segments generalizing position with
  | nil => rfl
  | cons segment segments ih =>
      cases segment with
      | plain element => exact ih (position + 1)
      | «variable» var =>
          exact congrArg (List.cons _) (ih (position + var.pattern.length))

theorem length_bindingsFrom (position : Nat) (segments : List Segment) :
    (bindingsFrom position segments).length =
      (segments.filterMap Segment.var?).length := by
  simpa using congrArg List.length (map_bindingsFrom position segments)

/-- The segments at the positions of a binding, joined by slashes. -/
def Binding.capture (segments : List String) (binding : Binding) :
    Except Misfit (String × String) :=
  let stop := binding.stop.getD segments.length
  if binding.start ≤ stop ∧ stop ≤ segments.length then
    .ok (binding.field,
      "/".intercalate ((segments.drop binding.start).take (stop - binding.start)))
  else
    .error ⟨binding.field, binding.start, stop, segments.length⟩

/-- The values of all variables, in template order. -/
def captures (segments : List String) :
    List Binding → Except Misfit (List (String × String))
  | [] => .ok []
  | binding :: bindings =>
    match binding.capture segments with
    | .error misfit => .error misfit
    | .ok value =>
      match captures segments bindings with
      | .error misfit => .error misfit
      | .ok values => .ok (value :: values)

end HttpRoutes
