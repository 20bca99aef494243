import HttpRoutes.Json.Basic

/-!
# Writing JSON

Values are written over several lines, two blanks for each level; an empty array
or object stays on its line.  Quotes, backslashes and control characters are
escaped and everything else is written as it is.
-/

namespace HttpRoutes.Json

def hexDigitChar (n : Nat) : Char :=
  if n < 10 then Char.ofNat ('0'.toNat + n) else Char.ofNat ('a'.toNat + (n - 10))

def escapeChar (c : Char) : List Char :=
  if c = '"' then ['\\', '"']
  else if c = '\\' then ['\\', '\\']
  else if c = '\x08' then ['\\', 'b']
  else if c = '\x0c' then ['\\', 'f']
  else if c = '\n' then ['\\', 'n']
  else if c = '\r' then ['\\', 'r']
  else if c = '\t' then ['\\', 't']
  else if c.toNat < 32 then
    ['\\', 'u', '0', '0', hexDigitChar (c.toNat / 16), hexDigitChar (c.toNat % 16)]
  else [c]

/-- A text between quotes. -/
def quote (text : String) : String :=
  String.ofList ('"' :: text.toList.flatMap escapeChar ++ ['"'])

def indent (level : Nat) : String := String.ofList (List.replicate (2 * level) ' ')

/-- Put written items between brackets, each on a line of its own. -/
def layOut (level : Nat) (opening closing : String) : List String → String
  | [] => opening ++ closing
  | items =>
    opening ++ "\n" ++
      ",\n".intercalate (items.map fun item => indent (level + 1) ++ item) ++
      "\n" ++ indent level ++ closing

mutual

/-- Write a value that begins on a line of the given level. -/
def render (level : Nat) : Json → String
  | .null => "null"
  | .bool true => "true"
  | .bool false => "false"
  | .number digits => digits
  | .string text => quote (text.getD "")
  | .array items => layOut level "[" "]" (renderItems (level + 1) items)
  | .object members => layOut level "\x7b" "\x7d" (renderMembers (level + 1) members)

def renderItems (level : Nat) : List Json → List String
  | [] => []
  | item :: items => render level item :: renderItems level items

def renderMembers (level : Nat) : List (Option String × Json) → List String
  | [] => []
  | (name, value) :: members =>
    (quote (name.getD "") ++ ": " ++ render level value) ::
      renderMembers level members

end

def pretty (value : Json) : String := value.render 0

end HttpRoutes.Json
