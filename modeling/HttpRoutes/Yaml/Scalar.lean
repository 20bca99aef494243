import HttpRoutes.Text.Digits
import HttpRoutes.Yaml.Chars

/-!
# Scalars of YAML texts

The text of a scalar is not always what is written.  In plain and quoted scalars
the blanks around a line break go, a single break becomes a blank, and of
several breaks the first one goes.  A quoted scalar has escapes besides.  A
block scalar keeps its lines, or joins them if it is folded, and its indentation
is that of its first line that is not blank.

Every reader walks over the text character by character.  It answers with the
text of the scalar, the position where it stopped and the characters that
remain.
-/

namespace HttpRoutes.Yaml

/-- The text of a scalar as far as it has been read, last character first, and
the blanks and breaks since. -/
structure Folding where
  text : List Char
  blanks : List Char
  /-- Whether a break has come since the last character. -/
  broken : Bool
  /-- The first break, if it has not been escaped. -/
  first : List Char
  /-- The breaks after the first one, last first. -/
  others : List Char

namespace Folding

def start : Folding := ⟨[], [], false, [], []⟩

def addBlank (c : Char) (folding : Folding) : Folding :=
  if folding.broken then folding
  else { folding with blanks := c :: folding.blanks }

def addBreak (c : Char) (folding : Folding) : Folding :=
  if folding.broken then
    { folding with others := normalBreak c :: folding.others }
  else
    { folding with blanks := [], broken := true, first := [normalBreak c] }

/-- A break that has been escaped leaves no trace. -/
def escapeBreak (folding : Folding) : Folding :=
  { folding with blanks := [], broken := true, first := [], others := [] }

/-- Add what the blanks and breaks since the last character amount to. -/
def close (folding : Folding) : Folding :=
  let gap :=
    if folding.broken then
      if folding.first = ['\n'] then
        if folding.others.isEmpty then [' '] else folding.others
      else
        folding.others ++ folding.first
    else
      folding.blanks
  ⟨gap ++ folding.text, [], false, [], []⟩

def addChar (c : Char) (folding : Folding) : Folding :=
  let closed := folding.close
  { closed with text := c :: closed.text }

def result (folding : Folding) : String := String.ofList folding.text.reverse

end Folding

/-- A scalar that has been read. -/
structure ReadScalar where
  text : String
  /-- Whether the reader stopped on a later line than that of the last
  character. -/
  broken : Bool
  position : Position
  remaining : List Char

/-- Where the reader of a plain scalar stands. -/
inductive PlainPlace where
  | start
  | inText
  | inGap
deriving DecidableEq

def isFlowIndicator (c : Char) : Bool :=
  c = ',' || c = '[' || c = ']' || c = '{' || c = '}'

/-- Read a plain scalar.  In a block it ends at a line with less than `indent`
columns of indentation. -/
def readPlain (inFlow : Bool) (indent : Nat) (place : PlainPlace) (pos : Position)
    (folding : Folding) : List Char → Option ReadScalar
  | [] => some ⟨folding.result, folding.broken, pos, []⟩
  | '\r' :: '\n' :: cs =>
    readPlain inFlow indent .inGap (pos.newLine 2) (folding.addBreak '\n') cs
  | c :: cs =>
    if isBreak c then
      readPlain inFlow indent .inGap (pos.newLine c.utf8Size) (folding.addBreak c) cs
    else if isBlank c then
      if folding.broken && pos.column < indent && c = '\t' then none
      else readPlain inFlow indent .inGap (pos.past c) (folding.addBlank c) cs
    else if place = .inGap && !inFlow && pos.column < indent then
      some ⟨folding.result, folding.broken, pos, c :: cs⟩
    else if place != .inText &&
        (c = '#' || (pos.column = 0 && startsWithMarker (c :: cs))) then
      some ⟨folding.result, folding.broken, pos, c :: cs⟩
    else if inFlow && c = ':' && (cs.head?.any fun d => isFlowIndicator d || d = '?') then
      none
    else if (c = ':' && startsWithSpace cs) || (inFlow && isFlowIndicator c) then
      some ⟨folding.result, folding.broken, pos, c :: cs⟩
    else
      readPlain inFlow indent .inText (pos.past c) (folding.addChar c) cs

/-- Read a scalar in single quotes from the character after the quote on. -/
def readSingleQuoted (pos : Position) (folding : Folding) :
    List Char → Option ReadScalar
  | [] => none
  | '\'' :: '\'' :: cs =>
    readSingleQuoted (pos.pastAll ['\'', '\'']) (folding.addChar '\'') cs
  | '\'' :: cs => some ⟨folding.close.result, false, pos.past '\'', cs⟩
  | '\r' :: '\n' :: cs => readSingleQuoted (pos.newLine 2) (folding.addBreak '\n') cs
  | c :: cs =>
    if isBreak c then
      readSingleQuoted (pos.newLine c.utf8Size) (folding.addBreak c) cs
    else if isBlank c then
      readSingleQuoted (pos.past c) (folding.addBlank c) cs
    else if pos.column = 0 && startsWithMarker (c :: cs) then
      none
    else
      readSingleQuoted (pos.past c) (folding.addChar c) cs

/-- The character that a one-letter escape stands for. -/
def escaped? (c : Char) : Option Char :=
  match c with
  | '0' => some '\x00'
  | 'a' => some '\x07'
  | 'b' => some '\x08'
  | 't' => some '\t'
  | '\t' => some '\t'
  | 'n' => some '\n'
  | 'v' => some '\x0b'
  | 'f' => some '\x0c'
  | 'r' => some '\r'
  | 'e' => some '\x1b'
  | ' ' => some ' '
  | '"' => some '"'
  | '/' => some '/'
  | '\\' => some '\\'
  | 'N' => some '\x85'
  | '_' => some '\xa0'
  | 'L' => some '\u2028'
  | 'P' => some '\u2029'
  | _ => none

/-- The number of digits that an escape by number has. -/
def escapeDigits? (c : Char) : Option Nat :=
  match c with
  | 'x' => some 2
  | 'u' => some 4
  | 'U' => some 8
  | _ => none

/-- The character with a given number, if there is one. -/
def charOfNumber? (n : Nat) : Option Char :=
  if n.isValidChar then some (Char.ofNat n) else none

/-- Read a scalar in double quotes from the character after the quote on.
Within an escape by number, `code` holds the number of digits to come and the
value of those read. -/
def readDoubleQuoted (code : Option (Nat × Nat)) (pos : Position)
    (folding : Folding) : List Char → Option ReadScalar
  | [] => none
  | '\\' :: '\r' :: '\n' :: cs =>
    if code.isSome then none
    else readDoubleQuoted none ((pos.past '\\').newLine 2) folding.close.escapeBreak cs
  | '\r' :: '\n' :: cs =>
    if code.isSome then none
    else readDoubleQuoted none (pos.newLine 2) (folding.addBreak '\n') cs
  | [c] =>
    if c = '"' && code.isNone then some ⟨folding.close.result, false, pos.past c, []⟩
    else none
  | c :: d :: cs =>
    match code with
    | some (digits, value) =>
      match Text.hexDigit? c with
      | none => none
      | some digit =>
        let value := 16 * value + digit
        if digits ≤ 1 then
          match charOfNumber? value with
          | none => none
          | some e => readDoubleQuoted none (pos.past c) (folding.addChar e) (d :: cs)
        else
          readDoubleQuoted (some (digits - 1, value)) (pos.past c) folding (d :: cs)
    | none =>
      if c = '"' then
        some ⟨folding.close.result, false, pos.past c, d :: cs⟩
      else if isBreak c then
        readDoubleQuoted none (pos.newLine c.utf8Size) (folding.addBreak c) (d :: cs)
      else if isBlank c then
        readDoubleQuoted none (pos.past c) (folding.addBlank c) (d :: cs)
      else if pos.column = 0 && startsWithMarker (c :: d :: cs) then
        none
      else if c = '\\' then
        if isBreak d then
          readDoubleQuoted none ((pos.past c).newLine d.utf8Size) folding.close.escapeBreak cs
        else
          match escaped? d, escapeDigits? d with
          | some e, _ => readDoubleQuoted none (pos.pastAll [c, d]) (folding.addChar e) cs
          | none, some digits =>
            readDoubleQuoted (some (digits, 0)) (pos.pastAll [c, d]) folding cs
          | none, none => none
      else
        readDoubleQuoted none (pos.past c) (folding.addChar c) (d :: cs)

end HttpRoutes.Yaml
