import HttpRoutes.Text.Printable

/-!
# Quoted texts

A text between double quotes, so that all of it can be seen: quotes, backslashes
and characters that are not printable are escaped.
-/

namespace HttpRoutes.Text

def escapeChar (c : Char) : String :=
  match c with
  | '"' => "\\\""
  | '\\' => "\\\\"
  | '\n' => "\\n"
  | '\r' => "\\r"
  | '\t' => "\\t"
  | '\x00' => "\\0"
  | c =>
    if isPrintable c then String.singleton c
    else "\\u\x7b" ++ String.ofList (Nat.toDigits 16 c.toNat) ++ "\x7d"

def quoted (text : String) : String :=
  "\"" ++ String.join (text.toList.map escapeChar) ++ "\""

def quotedPair (pair : String × String) : String :=
  "(" ++ quoted pair.1 ++ ", " ++ quoted pair.2 ++ ")"

/-- A list of items that are written out already. -/
def bracketed (items : List String) : String :=
  "[" ++ ", ".intercalate items ++ "]"

end HttpRoutes.Text
