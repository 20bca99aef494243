import HttpRoutes.Text.Digits
import HttpRoutes.Yaml.Chars
import HttpRoutes.Yaml.Token.Basic

/-!
# Tags and directives of YAML texts

A tag is written in full between `!<` and `>`, or as a handle and a suffix; the
handle `!` may be all there is of it.  Characters that a tag may not hold are
written as the escapes of their bytes, and nothing counts from a zero byte on.  Directives say which version of YAML a
text follows and what handles stand for.
-/

namespace HttpRoutes.Yaml

/-- Read a version number of at most nine digits. -/
def readVersionNumber (cs : List Char) : Option (Nat × List Char) :=
  let digits := cs.takeWhile Char.isDigit
  if digits.isEmpty || 9 < digits.length then none
  else
    some (Text.decimal digits, cs.dropWhile Char.isDigit)

/-- Read a handle such as `!`, `!!` or `!name!`.  Without its closing mark it is
none, but may be the beginning of a tag. -/
def readHandle : List Char → Option (List Char × List Char)
  | '!' :: cs =>
    let word := '!' :: cs.takeWhile isWordChar
    match cs.dropWhile isWordChar with
    | '!' :: cs => some (word ++ ['!'], cs)
    | cs => some (word, cs)
  | _ => none

/-- Read `count` bytes, each of them written as an escape. -/
def readEscapedBytes : Nat → List Char → Option (Tag × List Char)
  | 0, cs => some ([], cs)
  | count + 1, '%' :: a :: b :: cs => do
    let high ← Text.hexDigit? a
    let low ← Text.hexDigit? b
    let (bytes, cs) ← readEscapedBytes count cs
    pure (UInt8.ofNat (16 * high + low) :: bytes, cs)
  | _, _ => none

/-- The number of bytes of the character that begins with a byte. -/
def leadWidth? (byte : UInt8) : Option Nat :=
  if byte < 0x80 then some 1
  else if 0xC0 ≤ byte ∧ byte < 0xE0 then some 2
  else if 0xE0 ≤ byte ∧ byte < 0xF0 then some 3
  else if 0xF0 ≤ byte ∧ byte < 0xF8 then some 4
  else none

/-- Whether a byte can stand within a character, but not begin one. -/
def isTrailingByte (byte : UInt8) : Bool := 0x80 ≤ byte && byte < 0xC0

/-- Read a character written as the escapes of its bytes.  The first byte tells
how many there are; whether there is such a character does not matter. -/
def readEscapedChar (cs : List Char) : Option (Tag × List Char) := do
  let (lead, _) ← readEscapedBytes 1 cs
  let width ← leadWidth? (lead.headD 0)
  let (bytes, cs) ← readEscapedBytes width cs
  if bytes.tail.all isTrailingByte then some (bytes, cs) else none

/-- The characters of tags that are written as they are. -/
def isTagChar (verbatim : Bool) (c : Char) : Bool :=
  isWordChar c || ";/?:@&=+$.!~*'()".toList.contains c ||
    (verbatim && (c = ',' || c = '[' || c = ']'))

/-- The bytes of characters that are written as they are. -/
def tagBytes (cs : List Char) : Tag := cs.map fun c => UInt8.ofNat c.toNat

/-- Read the characters of a tag.  `fuel` bounds their number. -/
def readTagChars (verbatim : Bool) : Nat → List Char → Option (Tag × List Char)
  | 0, cs => some ([], cs)
  | fuel + 1, '%' :: cs => do
    let (bytes, cs) ← readEscapedChar ('%' :: cs)
    let (others, cs) ← readTagChars verbatim fuel cs
    pure (bytes ++ others, cs)
  | fuel + 1, c :: cs =>
    if isTagChar verbatim c then do
      let (others, cs) ← readTagChars verbatim fuel cs
      pure (tagBytes [c] ++ others, cs)
    else
      some ([], c :: cs)
  | _, [] => some ([], [])

/-- What counts of a tag: a zero byte ends it. -/
def beforeZero (bytes : Tag) : Tag := bytes.takeWhile (· != 0)

/-- Read the handle and the suffix of a tag. -/
def readTagParts (cs : List Char) : Option (String × Tag × List Char) :=
  match cs with
  | '!' :: '<' :: cs =>
    match readTagChars true cs.length cs with
    | some (suffix, '>' :: cs) =>
      if suffix.isEmpty then none else some ("", beforeZero suffix, cs)
    | _ => none
  | cs => do
    let (handle, cs) ← readHandle cs
    let (suffix, cs) ← readTagChars false cs.length cs
    if 1 < handle.length && handle.getLast? = some '!' then
      if suffix.isEmpty then none
      else some (String.ofList handle, beforeZero suffix, cs)
    else
      match beforeZero (tagBytes (handle.drop 1) ++ suffix) with
      | [] => some ("", tagBytes ['!'], cs)
      | suffix => some ("!", suffix, cs)

/-- Read the name and the value of a directive. -/
def readDirectiveToken (cs : List Char) : Option (Token × List Char) := do
  let name := cs.takeWhile isWordChar
  let cs := cs.dropWhile isWordChar
  if !startsWithSpace cs then none
  let cs := cs.dropWhile isBlank
  if name = "YAML".toList then do
    let (major, cs) ← readVersionNumber cs
    match cs with
    | '.' :: cs =>
      let (minor, cs) ← readVersionNumber cs
      pure (.versionDirective major minor, cs)
    | _ => none
  else if name = "TAG".toList then do
    let (handle, cs) ← readHandle cs
    if handle.getLast? != some '!' || !(cs.head?.any isBlank) then none
    let cs := cs.dropWhile isBlank
    let (start, cs) ← readTagChars true cs.length cs
    if start.isEmpty || !startsWithSpace cs then none
    pure (.tagDirective (String.ofList handle) (beforeZero start), cs)
  else
    none

end HttpRoutes.Yaml
