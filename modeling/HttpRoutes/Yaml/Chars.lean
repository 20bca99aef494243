/-!
# Characters of YAML texts

The classes of characters that the syntax of YAML distinguishes, and positions
in a text.
-/

namespace HttpRoutes.Yaml

/-- The characters a text may hold. -/
def isAllowed (c : Char) : Bool :=
  let n := c.toNat
  n = 0x9 || n = 0xA || n = 0xD || (0x20 ≤ n && n ≤ 0x7E) || n = 0x85 ||
    (0xA0 ≤ n && n ≤ 0xD7FF) || (0xE000 ≤ n && n ≤ 0xFFFD) ||
    0x10000 ≤ n

def byteOrderMark : Char := '\ufeff'

def isBlank (c : Char) : Bool := c = ' ' || c = '\t'

def isBreak (c : Char) : Bool :=
  c = '\n' || c = '\r' || c = '\x85' || c = '\u2028' || c = '\u2029'

/-- The characters of anchors and of directive names. -/
def isWordChar (c : Char) : Bool := c.isAlphanum || c = '_' || c = '-'

/-- Whether a text is over here, or goes on with a blank or a break. -/
def startsWithSpace : List Char → Bool
  | [] => true
  | c :: _ => isBlank c || isBreak c

/-- The break that stands for `c` in a scalar.  All breaks of a line count as a
line feed but for the two separators of Unicode, which are kept. -/
def normalBreak (c : Char) : Char :=
  if c = '\u2028' || c = '\u2029' then c else '\n'

/-- Whether a line begins with three dashes or three dots on their own. -/
def startsWithMarker : List Char → Bool
  | '-' :: '-' :: '-' :: cs => startsWithSpace cs
  | '.' :: '.' :: '.' :: cs => startsWithSpace cs
  | _ => false

/-- How many bytes, lines and characters of its line lie in front of a place. -/
structure Position where
  index : Nat
  line : Nat
  column : Nat

namespace Position

def start : Position := ⟨0, 0, 0⟩

/-- The position after a character of the same line. -/
def past (c : Char) (pos : Position) : Position :=
  ⟨pos.index + c.utf8Size, pos.line, pos.column + 1⟩

/-- The position after some characters of the same line. -/
def pastAll (cs : List Char) (pos : Position) : Position :=
  cs.foldl (fun pos c => pos.past c) pos

/-- The position after a break of `width` bytes. -/
def newLine (width : Nat) (pos : Position) : Position :=
  ⟨pos.index + width, pos.line + 1, 0⟩

end Position
end HttpRoutes.Yaml
