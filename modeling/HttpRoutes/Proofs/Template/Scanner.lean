import HttpRoutes.Proofs.Text.Position

/-!
# Reading a template at a byte position

A template can also be read in place.  A position moves over the bytes of the
text, one byte is looked at at a time, and what a literal, a name or a verb says
is cut out of the text once the position has passed it.  Such a cut can fail: its
ends may be out of order or out of range, or within a character.

All readers are put together from a few steps.  Two laws hold of the steps and
are kept by doing one after the other, so every reader comes with them: the
position never goes back, and texts with the same front are read alike until the
position reaches the end of that front.
-/

namespace HttpRoutes

open Percent (bytesOfText)

variable {α β σ : Type}

/-- Why reading at a position ends early. -/
inductive Halt where
  | malformed (reason : Reason) (offset : Nat)
  | duplicate (path : FieldPath)
  | badSlice (start stop : Nat)
deriving DecidableEq

/-- Reading has come as far as `pos`. -/
def Halt.Reaches (pos : Nat) : Halt → Prop
  | .malformed _ offset => pos ≤ offset
  | .duplicate _ => True
  | .badSlice _ _ => True

def Reaches (pos : Nat) : Except Halt (α × Nat) → Prop
  | .ok (_, next) => pos ≤ next
  | .error halt => halt.Reaches pos

theorem Halt.Reaches.mono {start pos : Nat} {halt : Halt}
    (hreaches : halt.Reaches pos) (hle : start ≤ pos) : halt.Reaches start := by
  cases halt with
  | malformed reason offset => exact hle.trans hreaches
  | duplicate path => trivial
  | badSlice first last => trivial

theorem Reaches.mono {start pos : Nat} {outcome : Except Halt (α × Nat)}
    (hreaches : Reaches pos outcome) (hle : start ≤ pos) :
    Reaches start outcome := by
  cases outcome with
  | ok read => exact hle.trans hreaches
  | error halt => exact Halt.Reaches.mono hreaches hle

@[simp] theorem reaches_map_iff {pos : Nat} {outcome : Except Halt (α × Nat)}
    {f : α → β} :
    Reaches pos (outcome.map (Prod.map f id)) ↔ Reaches pos outcome := by
  cases outcome <;> rfl

/-- A reader of bytes from a position on. -/
structure Scanner (α : Type) where
  run : String → Nat → Except Halt (α × Nat)
  reaches : ∀ text pos, Reaches pos (run text pos)
  alike : ∀ {text other : String} {front : List UInt8},
    front <+: bytesOfText text → front <+: bytesOfText other → ∀ pos,
      run other pos = run text pos ∨ Reaches front.length (run text pos)

namespace Scanner

/-! ## One reader after the other -/

protected def pure (x : α) : Scanner α where
  run _ pos := .ok (x, pos)
  reaches _ pos := Nat.le_refl pos
  alike _ _ _ := .inl rfl

theorem le_of_run_eq_ok {scan : Scanner α} {text : String} {pos : Nat}
    {read : α × Nat} (hrun : scan.run text pos = .ok read) : pos ≤ read.2 := by
  have hreaches := scan.reaches text pos
  rwa [hrun] at hreaches

theorem reaches_of_run_eq_error {scan : Scanner α} {text : String} {pos : Nat}
    {halt : Halt} (hrun : scan.run text pos = .error halt) : halt.Reaches pos := by
  have hreaches := scan.reaches text pos
  rwa [hrun] at hreaches

/-- A reader that stops within the front stops there for every such text. -/
theorem run_eq_of_lt {scan : Scanner α} {text other : String}
    {front : List UInt8} (htext : front <+: bytesOfText text)
    (hother : front <+: bytesOfText other) {pos : Nat} {read : α × Nat}
    (hrun : scan.run text pos = .ok read) (hlt : read.2 < front.length) :
    scan.run other pos = .ok read := by
  have halike := scan.alike htext hother pos
  rw [hrun] at halike
  exact halike.resolve_right (Nat.not_le_of_lt hlt)

protected def bind (scan : Scanner α) (next : α → Scanner β) : Scanner β where
  run text pos :=
    match scan.run text pos with
    | .error halt => .error halt
    | .ok (x, mid) => (next x).run text mid
  reaches text pos := by
    cases hrun : scan.run text pos with
    | error halt => exact reaches_of_run_eq_error hrun
    | ok read =>
        exact ((next read.1).reaches text read.2).mono (le_of_run_eq_ok hrun)
  alike := by
    intro text other front htext hother pos
    have hfirst := scan.alike htext hother pos
    cases hrun : scan.run text pos with
    | error halt =>
        rw [hrun] at hfirst
        rcases hfirst with hsame | hbeyond
        · exact .inl (by rw [hsame])
        · exact .inr hbeyond
    | ok read =>
        rw [hrun] at hfirst
        rcases hfirst with hsame | hbeyond
        · rw [hsame]
          exact (next read.1).alike htext hother read.2
        · exact .inr (((next read.1).reaches text read.2).mono hbeyond)

instance : Monad Scanner where
  pure := Scanner.pure
  bind := Scanner.bind

theorem run_bind (scan : Scanner α) (next : α → Scanner β) (text : String)
    (pos : Nat) :
    (scan >>= next).run text pos =
      match scan.run text pos with
      | .error halt => .error halt
      | .ok (x, mid) => (next x).run text mid := rfl

/-! ## Steps -/

/-- The byte at the position, looked at as the character it is on its own. -/
def peek : Scanner (Option Char) where
  run text pos := .ok ((bytesOfText text)[pos]?.map Char.ofUInt8, pos)
  reaches _ pos := Nat.le_refl pos
  alike := by
    intro text other front htext hother pos
    by_cases hlt : pos < front.length
    · exact .inl (by rw [byte_eq_of_front htext hother hlt])
    · exact .inr (Nat.le_of_not_lt hlt)

def position : Scanner Nat where
  run _ pos := .ok (pos, pos)
  reaches _ pos := Nat.le_refl pos
  alike _ _ _ := .inl rfl

def advance : Scanner Unit where
  run _ pos := .ok ((), pos + 1)
  reaches _ pos := Nat.le_succ pos
  alike _ _ _ := .inl rfl

/-- Pass all bytes for which `p` holds. -/
def skip (p : Char → Bool) : Scanner Unit where
  run text pos :=
    .ok ((), pos + (((bytesOfText text).drop pos).takeWhile
      fun byte => p (.ofUInt8 byte)).length)
  reaches _ pos := Nat.le_add_right pos _
  alike := by
    intro text other front htext hother pos
    by_cases hle : pos ≤ front.length
    · obtain ⟨back, hback⟩ := htext
      obtain ⟨back', hback'⟩ := hother
      rw [← hback, ← hback', List.drop_append_of_le_length hle,
        List.drop_append_of_le_length hle, List.takeWhile_append,
        List.takeWhile_append]
      split
      next hall =>
        right
        rw [List.length_drop] at hall
        simp only [Reaches, List.length_append, List.length_drop]
        omega
      next => exact .inl rfl
    · exact .inr (by simp only [Reaches]; omega)

def fail (reason : Reason) : Scanner α where
  run _ pos := .error (.malformed reason pos)
  reaches _ pos := Nat.le_refl pos
  alike _ _ _ := .inl rfl

def reject (path : FieldPath) : Scanner α where
  run _ _ := .error (.duplicate path)
  reaches _ _ := trivial
  alike _ _ _ := .inl rfl

/-- Cut out what has been passed since `start`. -/
def since (start : Nat) : Scanner String where
  run text pos :=
    match slice? text start pos with
    | none => .error (.badSlice start pos)
    | some piece => .ok (piece, pos)
  reaches text pos := by
    cases slice? text start pos with
    | none => trivial
    | some piece => exact Nat.le_refl pos
  alike := by
    intro text other front htext hother pos
    cases hslice : slice? text start pos with
    | none => exact .inr trivial
    | some piece =>
        by_cases hle : pos ≤ front.length
        · left
          rw [slice?_eq_of_front htext hother hle hslice]
        · exact .inr (Nat.le_of_not_le hle)

def test (p : Char → Bool) : Scanner Bool := do
  return (← peek).any p

def atEnd : Scanner Bool := do
  return (← peek).isNone

/-- Pass a character, if it is the next one. -/
def consume (c : Char) : Scanner Bool := do
  if ← test (· = c) then
    advance
    return true
  else
    return false

/-! ## Repetition -/

/-- Read items with `separator` between them and then `close`, where `step`
hands on what an item has to know of those before it. -/
def runSeparated (separator : Char) (item : σ → Scanner α) (step : σ → α → σ)
    (close : Scanner Unit) (text : String) (state : σ) (pos : Nat) :
    Except Halt (List α × Nat) :=
  match _hitem : (item state).run text pos with
  | .error halt => .error halt
  | .ok (x, mid) =>
    if _hnext : (bytesOfText text)[mid]?.map Char.ofUInt8 = some separator then
      (runSeparated separator item step close text (step state x) (mid + 1)).map
        (Prod.map (x :: ·) id)
    else
      (close.run text mid).map (Prod.map (fun _ => [x]) id)
termination_by (bytesOfText text).length - pos
decreasing_by
  have hle : pos ≤ mid := le_of_run_eq_ok _hitem
  obtain ⟨byte, hbyte, -⟩ := Option.map_eq_some_iff.mp _hnext
  obtain ⟨hlt, -⟩ := List.getElem?_eq_some_iff.mp hbyte
  omega

section Separated

variable {separator : Char} {item : σ → Scanner α} {step : σ → α → σ}
  {close : Scanner Unit} {text : String} {state : σ} {pos mid : Nat} {x : α}

theorem runSeparated_error {halt : Halt}
    (hitem : (item state).run text pos = .error halt) :
    runSeparated separator item step close text state pos = .error halt := by
  rw [runSeparated]
  split <;> simp_all

theorem runSeparated_more (hitem : (item state).run text pos = .ok (x, mid))
    (hnext : (bytesOfText text)[mid]?.map Char.ofUInt8 = some separator) :
    runSeparated separator item step close text state pos =
      (runSeparated separator item step close text (step state x) (mid + 1)).map
        (Prod.map (x :: ·) id) := by
  rw [runSeparated]
  split <;> simp_all

theorem runSeparated_last (hitem : (item state).run text pos = .ok (x, mid))
    (hnext : (bytesOfText text)[mid]?.map Char.ofUInt8 ≠ some separator) :
    runSeparated separator item step close text state pos =
      (close.run text mid).map (Prod.map (fun _ => [x]) id) := by
  rw [runSeparated]
  split <;> simp_all

end Separated

theorem runSeparated_reaches (separator : Char) (item : σ → Scanner α)
    (step : σ → α → σ) (close : Scanner Unit) (text : String) (state : σ)
    (pos : Nat) :
    Reaches pos (runSeparated separator item step close text state pos) := by
  fun_induction runSeparated separator item step close text state pos with
  | case1 state pos halt hitem => exact reaches_of_run_eq_error hitem
  | case2 state pos x mid hitem hnext ih =>
      have hle : pos ≤ mid := le_of_run_eq_ok hitem
      exact reaches_map_iff.mpr (ih.mono (hle.trans (Nat.le_succ mid)))
  | case3 state pos x mid hitem hnext =>
      have hle : pos ≤ mid := le_of_run_eq_ok hitem
      exact reaches_map_iff.mpr ((close.reaches text mid).mono hle)

/-- As long as the front lasts, each item ends at the same place and the same
byte follows it. -/
theorem runSeparated_alike {separator : Char} {item : σ → Scanner α}
    {step : σ → α → σ} {close : Scanner Unit} {text other : String}
    {front : List UInt8} (htext : front <+: bytesOfText text)
    (hother : front <+: bytesOfText other) (state : σ) (pos : Nat) :
    runSeparated separator item step close other state pos =
        runSeparated separator item step close text state pos ∨
      Reaches front.length
        (runSeparated separator item step close text state pos) := by
  fun_induction runSeparated separator item step close text state pos with
  | case1 state pos halt hitem =>
      have hfirst := (item state).alike htext hother pos
      rw [hitem] at hfirst
      exact hfirst.imp_left runSeparated_error
  | case2 state pos x mid hitem hnext ih =>
      rw [reaches_map_iff]
      by_cases hlt : mid < front.length
      · have hitem' := run_eq_of_lt htext hother hitem hlt
        rw [← byte_eq_of_front htext hother hlt] at hnext
        refine ih.imp_left fun hsame => ?_
        rw [runSeparated_more hitem' hnext, hsame]
      · exact .inr ((runSeparated_reaches ..).mono (by omega))
  | case3 state pos x mid hitem hnext =>
      rw [reaches_map_iff]
      by_cases hlt : mid < front.length
      · have hitem' := run_eq_of_lt htext hother hitem hlt
        rw [← byte_eq_of_front htext hother hlt] at hnext
        refine (close.alike htext hother mid).imp_left fun hsame => ?_
        rw [runSeparated_last hitem' hnext, hsame]
      · exact .inr ((close.reaches text mid).mono (by omega))

def separated (separator : Char) (item : σ → Scanner α) (step : σ → α → σ)
    (close : Scanner Unit) (state : σ) : Scanner (List α) where
  run text := runSeparated separator item step close text state
  reaches text := runSeparated_reaches separator item step close text state
  alike htext hother := runSeparated_alike htext hother state

/-! ## Templates -/

def readLiteral : Scanner String := do
  let start ← position
  skip Template.isTextChar
  if (← position) = start then
    fail .emptySegment
  else
    since start

def readElement (restSeen : Bool) : Scanner Element := do
  if restSeen then
    fail .elementAfterRest
  else if ← consume '*' then
    if ← consume '*' then return .rest else return .any
  else if ← test (· = '{') then
    fail .nestedVariable
  else
    return .literal (← readLiteral)

def closePattern : Scanner Unit := do
  if ← consume '}' then
    return
  else if ← atEnd then
    fail .unterminatedVariable
  else
    fail .reservedCharacter

def readPattern : Bool → Scanner (List Element) :=
  separated '/' readElement (fun _ element => decide (element = .rest)) closePattern

def readName : Scanner String := do
  let start ← position
  if ← test Template.isNameStart then
    advance
    skip Template.isNameChar
    since start
  else
    fail .nameExpected

def readNames : Scanner (List String) :=
  separated '.' (fun _ => readName) (fun _ _ => ()) (pure ()) ()

/-- What follows the names of a variable, with the brace that closes it. -/
def readVariablePattern (restSeen : Bool) : Scanner (List Element) := do
  if ← consume '=' then
    readPattern restSeen
  else if ← consume '}' then
    return [.any]
  else if ← atEnd then
    fail .unterminatedVariable
  else
    fail .invalidFieldPath

def bindVariable (bound : List FieldPath) (path : FieldPath)
    (pattern : List Element) : Scanner Variable :=
  if path ∈ bound then reject path else pure ⟨path, pattern⟩

def readVariable (restSeen : Bool) (bound : List FieldPath) :
    Scanner Variable := do
  let names ← readNames
  let pattern ← readVariablePattern restSeen
  bindVariable bound ⟨names⟩ pattern

def readSegment (restSeen : Bool) (bound : List FieldPath) : Scanner Segment := do
  if ← consume '{' then
    return .variable (← readVariable restSeen bound)
  else
    return .plain (← readElement restSeen)

def closeSegments : Scanner Unit := do
  if ← atEnd then
    return
  else if ← test (· = ':') then
    return
  else if ← test (· = '}') then
    fail .unbalancedBrace
  else
    fail .reservedCharacter

def readSegments : Bool × List FieldPath → Scanner (List Segment) :=
  separated '/' (fun (restSeen, bound) => readSegment restSeen bound)
    (fun (restSeen, bound) segment =>
      (restSeen || segment.elements.contains .rest,
        Template.addBound bound segment))
    closeSegments

def readVerb : Scanner String := do
  let start ← position
  skip Template.isTextChar
  if ← atEnd then
    if (← position) = start then
      fail .emptyVerb
    else
      since start
  else
    fail .invalidVerb

def readSegmentsAndVerb : Scanner Template := do
  let segments ← readSegments (false, [])
  if ← consume ':' then
    return ⟨segments, some (← readVerb)⟩
  else
    return ⟨segments, none⟩

def readTemplate : Scanner Template := do
  if ← consume '/' then
    if ← atEnd then
      return ⟨[], none⟩
    else if ← test (· = ':') then
      fail .verbWithoutSegment
    else
      readSegmentsAndVerb
  else
    fail .missingSlash

end Scanner

/-- Read a template in place. -/
def scan (text : String) : Except Halt Template :=
  (Scanner.readTemplate.run text 0).map Prod.fst

end HttpRoutes
