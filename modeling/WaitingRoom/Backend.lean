import WaitingRoom.Failure
import WaitingRoom.Json.Decode
import WaitingRoom.Text.Blank

/-!
# Backends

The databases a waiting room can keep its records in, and how settings name them.
-/

namespace WaitingRoom

/-- A kind of database. -/
inductive Backend
  | mongo
  | postgres
  deriving DecidableEq, Repr

namespace Backend

/-- The name of a backend. -/
def name : Backend → String
  | mongo => "mongo"
  | postgres => "postgres"

/-- Reads a backend's name or its longer alias, in any case and with blanks around. -/
def parse (s : String) : Except Failure Backend :=
  let name := Text.lowerAscii (Text.trim s)
  if name == "mongo" || name == "mongodb" then .ok mongo
  else if name == "postgres" || name == "postgresql" then .ok postgres
  else .error (.invalidArgument ("unknown storage backend '" ++ name ++ "'"))

/-- Reads a backend from JSON, where it must be spelled exactly. -/
def ofJson : Json.Value → Json.Decoded Backend :=
  Json.Value.asChoice fun s =>
    if s == "mongo" then .ok mongo
    else if s == "postgres" then .ok postgres
    else .error .mismatched

end Backend

end WaitingRoom
