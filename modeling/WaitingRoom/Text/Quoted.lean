import WaitingRoom.Text.Ascii

/-!
# Quoted texts

Texts between quotes, as log entries show values that are not texts themselves: quotes of
both kinds, the backslash and the control characters of ASCII are escaped.
-/

namespace WaitingRoom.Text

/-- The hexadecimal digits of a number, without leading zeros. -/
def hexDigits (n : Nat) : List Char :=
  if n < 16 then [hexDigit n] else hexDigits (n / 16) ++ [hexDigit (n % 16)]

/-- How a character is shown between quotes. -/
def shownChar (c : Char) : List Char :=
  if c == '"' || c == '\\' || c == '\'' then ['\\', c]
  else if c == '\n' then ['\\', 'n']
  else if c == '\r' then ['\\', 'r']
  else if c == '\t' then ['\\', 't']
  else if c == '\x00' then ['\\', '0']
  else if c < ' ' || c == '\x7F' then ['\\', 'u', '{'] ++ hexDigits c.toNat ++ ['}']
  else [c]

/-- A text between quotes. -/
def shown (s : String) : String := "\"" ++ String.ofList (s.toList.flatMap shownChar) ++ "\""

/-- A text that may be absent. -/
def shownOption : Option String → String
  | some s => "Some(" ++ shown s ++ ")"
  | none => "None"

end WaitingRoom.Text
