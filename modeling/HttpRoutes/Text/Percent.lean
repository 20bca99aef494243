/-!
# Percent-encoded text

A `%` followed by two hexadecimal digits stands for one byte; everything else
stands for itself, a `%` without two digits included.  The bytes that result
are a text only if they are valid UTF-8.
-/

namespace HttpRoutes.Percent

/-- The value of a hexadecimal digit of either case. -/
def hexValue? (byte : UInt8) : Option UInt8 :=
  if 48 ≤ byte ∧ byte ≤ 57 then some (byte - 48)
  else if 65 ≤ byte ∧ byte ≤ 70 then some (byte - 55)
  else if 97 ≤ byte ∧ byte ≤ 102 then some (byte - 87)
  else none

/-- The byte of `%`. -/
def mark : UInt8 := 37

/-- Replace every escape by the byte it stands for. -/
def decodeBytes : List UInt8 → List UInt8
  | [] => []
  | [a] => [a]
  | [a, b] => [a, b]
  | a :: b :: c :: bytes =>
    if a = mark then
      match hexValue? b, hexValue? c with
      | some high, some low => (16 * high + low) :: decodeBytes bytes
      | _, _ => a :: decodeBytes (b :: c :: bytes)
    else
      a :: decodeBytes (b :: c :: bytes)

/-- The text that `bytes` spell, if they are valid UTF-8. -/
def textOfBytes? (bytes : List UInt8) : Option String :=
  String.fromUTF8? ⟨bytes.toArray⟩

def bytesOfText (text : String) : List UInt8 := text.toUTF8.data.toList

/-- The pieces between the escapes `%2F` and `%2f`. -/
def splitOnEncodedSlash : List UInt8 → List (List UInt8)
  | [] => [[]]
  | [a] => [[a]]
  | [a, b] => [[a, b]]
  | a :: b :: c :: bytes =>
    if a = mark ∧ b = 50 ∧ (c = 70 ∨ c = 102) then
      [] :: splitOnEncodedSlash bytes
    else
      match splitOnEncodedSlash (b :: c :: bytes) with
      | [] => [[a]]
      | piece :: pieces => (a :: piece) :: pieces

/-- Decode all escapes. -/
def decode (raw : String) : Option String :=
  textOfBytes? (decodeBytes (bytesOfText raw))

/-- Decode all escapes but those of a slash, which are kept and written `%2F`.
The result never has a slash that `raw` did not have. -/
def decodeKeepingSlashes (raw : String) : Option String := do
  let pieces ← (splitOnEncodedSlash (bytesOfText raw)).mapM fun piece =>
    textOfBytes? (decodeBytes piece)
  pure ("%2F".intercalate pieces)

end HttpRoutes.Percent
