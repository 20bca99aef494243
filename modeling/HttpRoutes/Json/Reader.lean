import HttpRoutes.Json.Basic
import HttpRoutes.Text.Digits

/-!
# Reading JSON

A strict reader: one value with blanks around it, no comments, no trailing
commas, no byte order mark.  Each reader gives back the characters that remain.
Reading a value takes at least one character, so the length of the text bounds
how deep readers can call one another.
-/

namespace HttpRoutes.Json

def isBlank (c : Char) : Bool := c = ' ' || c = '\n' || c = '\t' || c = '\r'

def skipBlanks (cs : List Char) : List Char := cs.dropWhile isBlank

/-- The value of four hexadecimal digits. -/
def hexQuad? (a b c d : Char) : Option Nat := do
  let a ← Text.hexDigit? a
  let b ← Text.hexDigit? b
  let c ← Text.hexDigit? c
  let d ← Text.hexDigit? d
  pure (((a * 16 + b) * 16 + c) * 16 + d)

/-- A piece of a string: a character, or half of a surrogate pair. -/
inductive Piece where
  | char (c : Char)
  | half (unit : Nat)

/-- The piece that a code unit of an escape names. -/
def Piece.ofUnit (unit : Nat) : Piece :=
  if 0xD800 ≤ unit ∧ unit ≤ 0xDFFF then .half unit else .char (Char.ofNat unit)

/-- The text of the pieces of a string, if every half has its partner. -/
def joinPieces : List Piece → Option (List Char)
  | [] => some []
  | .char c :: pieces => (joinPieces pieces).map (c :: ·)
  | .half high :: .half low :: pieces =>
    if high < 0xDC00 ∧ 0xDC00 ≤ low then
      (joinPieces pieces).map
        (Char.ofNat (0x10000 + (high - 0xD800) * 0x400 + (low - 0xDC00)) :: ·)
    else
      none
  | .half _ :: _ => none

/-- The character that a one-letter escape stands for. -/
def escaped? : Char → Option Char
  | '"' => some '"'
  | '\\' => some '\\'
  | '/' => some '/'
  | 'b' => some '\x08'
  | 'f' => some '\x0c'
  | 'n' => some '\n'
  | 'r' => some '\r'
  | 't' => some '\t'
  | _ => none

/-- Read the pieces of a string and the quote that closes it. -/
def readPieces : List Char → Option (List Piece × List Char)
  | [] => none
  | '"' :: cs => some ([], cs)
  | '\\' :: 'u' :: a :: b :: c :: d :: cs =>
    match hexQuad? a b c d, readPieces cs with
    | some unit, some (pieces, cs) => some (.ofUnit unit :: pieces, cs)
    | _, _ => none
  | '\\' :: c :: cs =>
    match escaped? c, readPieces cs with
    | some c, some (pieces, cs) => some (.char c :: pieces, cs)
    | _, _ => none
  | c :: cs =>
    if c.toNat < 32 ∨ c = '\\' then none
    else (readPieces cs).map fun (pieces, cs) => (.char c :: pieces, cs)

/-- Read a string from the character after its opening quote on. -/
def readString (cs : List Char) : Option (Option String × List Char) :=
  (readPieces cs).map fun (pieces, cs) =>
    ((joinPieces pieces).map String.ofList, cs)

/-- Read one or more digits. -/
def readDigits (cs : List Char) : Option (List Char × List Char) :=
  match cs.takeWhile Char.isDigit with
  | [] => none
  | digits => some (digits, cs.dropWhile Char.isDigit)

/-- Read the digits before the point.  A zero stands alone. -/
def readInteger : List Char → Option (List Char × List Char)
  | '0' :: c :: cs => if c.isDigit then none else some (['0'], c :: cs)
  | cs => readDigits cs

def readFraction : List Char → Option (List Char × List Char)
  | '.' :: cs => (readDigits cs).map fun (digits, cs) => ('.' :: digits, cs)
  | cs => some ([], cs)

def readExponent : List Char → Option (List Char × List Char)
  | e :: sign :: cs =>
    if e = 'e' ∨ e = 'E' then
      if sign = '+' ∨ sign = '-' then
        (readDigits cs).map fun (digits, cs) => (e :: sign :: digits, cs)
      else
        (readDigits (sign :: cs)).map fun (digits, cs) => (e :: digits, cs)
    else
      some ([], e :: sign :: cs)
  | ['e'] => none
  | ['E'] => none
  | cs => some ([], cs)

def readUnsigned (cs : List Char) : Option (List Char × List Char) := do
  let (integer, cs) ← readInteger cs
  let (fraction, cs) ← readFraction cs
  let (exponent, cs) ← readExponent cs
  pure (integer ++ fraction ++ exponent, cs)

def readNumber : List Char → Option (List Char × List Char)
  | '-' :: cs => (readUnsigned cs).map fun (digits, cs) => ('-' :: digits, cs)
  | cs => readUnsigned cs

mutual

/-- Read a value.  `fuel` bounds the nesting. -/
def readValue : Nat → List Char → Option (Json × List Char)
  | 0, _ => none
  | fuel + 1, cs =>
    match skipBlanks cs with
    | '{' :: cs =>
      match skipBlanks cs with
      | '}' :: cs => some (.object [], cs)
      | cs => (readMembers fuel cs).map fun (members, cs) => (.object members, cs)
    | '[' :: cs =>
      match skipBlanks cs with
      | ']' :: cs => some (.array [], cs)
      | cs => (readItems fuel cs).map fun (items, cs) => (.array items, cs)
    | '"' :: cs => (readString cs).map fun (text, cs) => (.string text, cs)
    | 'n' :: 'u' :: 'l' :: 'l' :: cs => some (.null, cs)
    | 't' :: 'r' :: 'u' :: 'e' :: cs => some (.bool true, cs)
    | 'f' :: 'a' :: 'l' :: 's' :: 'e' :: cs => some (.bool false, cs)
    | cs =>
      (readNumber cs).map fun (digits, cs) => (.number (String.ofList digits), cs)

/-- Read the items of an array and the bracket that closes it. -/
def readItems : Nat → List Char → Option (List Json × List Char)
  | 0, _ => none
  | fuel + 1, cs =>
    match readValue fuel cs with
    | none => none
    | some (item, cs) =>
      match skipBlanks cs with
      | ',' :: cs => (readItems fuel cs).map fun (items, cs) => (item :: items, cs)
      | ']' :: cs => some ([item], cs)
      | _ => none

/-- Read the members of an object and the brace that closes it. -/
def readMembers : Nat → List Char → Option (List (Option String × Json) × List Char)
  | 0, _ => none
  | fuel + 1, cs =>
    match skipBlanks cs with
    | '"' :: cs =>
      match readString cs with
      | none => none
      | some (name, cs) =>
        match skipBlanks cs with
        | ':' :: cs =>
          match readValue fuel cs with
          | none => none
          | some (value, cs) =>
            match skipBlanks cs with
            | ',' :: cs =>
              (readMembers fuel cs).map fun (members, cs) =>
                ((name, value) :: members, cs)
            | '}' :: cs => some ([(name, value)], cs)
            | _ => none
        | _ => none
    | _ => none

end

/-- Read a text that holds one value and nothing else. -/
def parse? (text : String) : Option Json :=
  let cs := text.toList
  match readValue (2 * cs.length + 1) cs with
  | none => none
  | some (value, cs) => if (skipBlanks cs).isEmpty then some value else none

end HttpRoutes.Json
