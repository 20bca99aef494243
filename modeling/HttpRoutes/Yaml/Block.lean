import HttpRoutes.Yaml.Scalar

/-!
# Block scalars of YAML texts

A block scalar begins with a header that may say how much it is indented and
what becomes of the line breaks at its end.  Its lines follow, as long as they
are indented as far as the first one that is not blank.
-/

namespace HttpRoutes.Yaml

/-- What becomes of the breaks at the end: none is kept, the first one is, or
all of them are. -/
inductive Chomping where
  | strip
  | clip
  | keep
deriving DecidableEq

structure BlockStyle where
  literal : Bool
  chomping : Chomping
  /-- The column of the text, if it is known. -/
  indent : Option Nat
  /-- The least column the text can have. -/
  minIndent : Nat

/-- The text of a block scalar as far as it has been read, last character
first. -/
structure BlockText where
  text : List Char
  /-- The break that ended the last line. -/
  lineBreak : List Char
  /-- The breaks of blank lines since, last first. -/
  blankLines : List Char
  /-- Whether the last line began with a blank. -/
  blankStart : Bool
  /-- The largest column at which a line so far had something other than
  indentation. -/
  widest : Nat

namespace BlockText

def start : BlockText := ⟨[], [], [], false, 0⟩

/-- Begin a line whose first character is `c`. -/
def beginLine (style : BlockStyle) (c : Char) (block : BlockText) : BlockText :=
  let gap :=
    if !style.literal && block.lineBreak = ['\n'] && !block.blankStart && !isBlank c then
      if block.blankLines.isEmpty then [' '] else block.blankLines
    else
      block.blankLines ++ block.lineBreak
  { block with
    text := c :: (gap ++ block.text)
    lineBreak := []
    blankLines := []
    blankStart := isBlank c }

def result (style : BlockStyle) (block : BlockText) : String :=
  let tail :=
    match style.chomping with
    | .strip => []
    | .clip => block.lineBreak
    | .keep => block.blankLines ++ block.lineBreak
  String.ofList (tail ++ block.text).reverse

end BlockText

/-- The column of the text once its first line has been seen. -/
def BlockStyle.settledIndent (style : BlockStyle) (widest : Nat) : Nat :=
  style.indent.getD (max (max widest style.minIndent) 1)

/-- Read the lines of a block scalar.  `inLine` tells whether the place is
within a line or in the indentation of one. -/
def readBlockLines (style : BlockStyle) (inLine : Bool) (pos : Position)
    (block : BlockText) : List Char → Option ReadScalar
  | [] => some ⟨block.result style, true, pos, []⟩
  | '\r' :: '\n' :: cs =>
    if inLine then
      readBlockLines style false (pos.newLine 2) { block with lineBreak := ['\n'] } cs
    else
      readBlockLines style false (pos.newLine 2)
        { block with
          blankLines := '\n' :: block.blankLines
          widest := max block.widest pos.column } cs
  | c :: cs =>
    if inLine then
      if isBreak c then
        readBlockLines style false (pos.newLine c.utf8Size)
          { block with lineBreak := [normalBreak c] } cs
      else
        readBlockLines style true (pos.past c) { block with text := c :: block.text } cs
    else
      let inIndent := style.indent.all fun indent => pos.column < indent
      if inIndent && c = ' ' then
        readBlockLines style false (pos.past c) block cs
      else if inIndent && c = '\t' then
        none
      else
        let widest := max block.widest pos.column
        if isBreak c then
          readBlockLines style false (pos.newLine c.utf8Size)
            { block with
              blankLines := normalBreak c :: block.blankLines
              widest := widest } cs
        else if pos.column = style.settledIndent widest then
          readBlockLines
            { style with indent := some (style.settledIndent widest) } true (pos.past c)
            (block.beginLine style c) cs
        else
          some ⟨block.result style, true, pos, c :: cs⟩

/-- Read the rest of a header's line, which may hold a comment. -/
def readHeaderEnd (pos : Position) (cs : List Char) :
    Option (Position × List Char) :=
  let blanks := cs.takeWhile isBlank
  let cs := cs.dropWhile isBlank
  let comment := if cs.head? = some '#' then cs.takeWhile (!isBreak ·) else []
  let pos := (pos.pastAll blanks).pastAll comment
  match cs.drop comment.length with
  | [] => some (pos, [])
  | '\r' :: '\n' :: cs => some (pos.newLine 2, cs)
  | c :: cs => if isBreak c then some (pos.newLine c.utf8Size, cs) else none

def chompingOf? (c : Char) : Option Chomping :=
  if c = '+' then some .keep else if c = '-' then some .strip else none

/-- The indentation that a digit of a header asks for. -/
def increment? (c : Char) : Option Nat :=
  if '1' ≤ c ∧ c ≤ '9' then some (c.toNat - '0'.toNat) else none

/-- Read the two indicators of a header, which may stand in either order: the
chomping, the indentation and the number of characters they take up. -/
def readIndicators (cs : List Char) : Chomping × Option Nat × Nat :=
  match cs with
  | [] => (.clip, none, 0)
  | c :: cs =>
    match chompingOf? c, increment? c with
    | some chomping, _ =>
      match cs.head?.bind increment? with
      | some increment => (chomping, some increment, 2)
      | none => (chomping, none, 1)
    | none, some increment =>
      match cs.head?.bind chompingOf? with
      | some chomping => (chomping, some increment, 2)
      | none => (.clip, some increment, 1)
    | none, none => (.clip, none, 0)

/-- Read a block scalar from the character after its indicator on.  `minIndent`
is the column after that of the enclosing block. -/
def readBlock (literal : Bool) (minIndent : Nat) (pos : Position) (cs : List Char) :
    Option ReadScalar := do
  let (chomping, increment, width) := readIndicators cs
  let (pos, cs) ← readHeaderEnd (pos.pastAll (cs.take width)) (cs.drop width)
  let indent := increment.map fun increment => max minIndent 1 - 1 + increment
  readBlockLines ⟨literal, chomping, indent, minIndent⟩ false pos .start cs

end HttpRoutes.Yaml
