import WaitingRoom.Json.Value

/-!
# Writing JSON

Compact texts without blanks. Of the characters of a text only the quote, the
backslash and the control characters below the blank are escaped.
-/

namespace WaitingRoom.Json

/-- How a character is written inside a text. -/
def escape (c : Char) : List Char :=
  if c == '"' then ['\\', '"']
  else if c == '\\' then ['\\', '\\']
  else if c == '\x08' then ['\\', 'b']
  else if c == '\x0C' then ['\\', 'f']
  else if c == '\n' then ['\\', 'n']
  else if c == '\r' then ['\\', 'r']
  else if c == '\t' then ['\\', 't']
  else if c < ' ' then
    ['\\', 'u', '0', '0', Text.hexDigit (c.toNat / 16), Text.hexDigit (c.toNat % 16)]
  else [c]

/-- A text between quotes. -/
def quote (s : String) : List Char := '"' :: s.toList.flatMap escape ++ ['"']

mutual

/-- The characters of a value. What cannot be written is written as null. -/
def Value.toChars : Value → List Char
  | .null | .broken | .text none => ['n', 'u', 'l', 'l']
  | .truth true => ['t', 'r', 'u', 'e']
  | .truth false => ['f', 'a', 'l', 's', 'e']
  | .number n => n.toChars
  | .text (some s) => quote s
  | .list items => '[' :: itemsToChars items
  | .record members => '{' :: membersToChars members

/-- The characters of the items of a list, up to its end. -/
def itemsToChars : List Value → List Char
  | [] => [']']
  | [v] => v.toChars ++ [']']
  | v :: w :: rest => v.toChars ++ ',' :: itemsToChars (w :: rest)

/-- The characters of the members of a record, up to its end. -/
def membersToChars : List (Value × Value) → List Char
  | [] => ['}']
  | [(key, v)] => key.toChars ++ ':' :: v.toChars ++ ['}']
  | (key, v) :: next :: rest =>
    key.toChars ++ ':' :: v.toChars ++ ',' :: membersToChars (next :: rest)

end

/-- The text of a value. -/
def Value.render (v : Value) : String := String.ofList v.toChars

end WaitingRoom.Json
