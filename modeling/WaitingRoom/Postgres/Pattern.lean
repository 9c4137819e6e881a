/-!
# Patterns

Patterns of a database in which `%` stands for any text and `_` for any character, and
where a backslash takes the character after it as it is.
-/

namespace WaitingRoom.Postgres.Pattern

/-- Whether a character means something else in a pattern. -/
def isSpecial (c : Char) : Bool := c == '\\' || c == '%' || c == '_'

/-- A character as a pattern that stands for nothing else. -/
def literal (c : Char) : List Char := if isSpecial c then ['\\', c] else [c]

/-- The pattern of all texts that have the term somewhere in them. -/
def containing (term : String) : String :=
  String.ofList ('%' :: term.toList.flatMap literal ++ ['%'])

end WaitingRoom.Postgres.Pattern
