import WaitingRoom.Json.Render

/-!
# Log entries

What the service has to tell: how grave it is, which part of the service tells it, a
message, and named details.
-/

namespace WaitingRoom.Logging

/-- How grave an entry is. -/
inductive Level
  | error
  | warn
  | info
  | debug
  | trace
  deriving DecidableEq, Repr

namespace Level

/-- All levels, the gravest first. -/
def all : List Level := [error, warn, info, debug, trace]

/-- The name of a level. -/
def name : Level → String
  | error => "error"
  | warn => "warn"
  | info => "info"
  | debug => "debug"
  | trace => "trace"

/-- The number of a level: the gravest has the lowest. -/
def rank : Level → Nat
  | error => 1
  | warn => 2
  | info => 3
  | debug => 4
  | trace => 5

/-- The name of a level as log lines have it. -/
def label (l : Level) : String := String.ofList (l.name.toList.map Char.toUpper)

end Level

/-- An entry of the log. -/
structure Entry where
  level : Level
  target : String
  message : String
  details : List (String × Json.Value) := []

namespace Entry

/-- The names of an entry's fields. -/
def fieldNames (e : Entry) : List String := "message" :: e.details.map (·.1)

/-- The fields of an entry as a record. -/
def fields (e : Entry) : Json.Value :=
  .ofMembers (("message", .ofString e.message) :: e.details)

/-- An entry as a record. -/
def toJson (e : Entry) : Json.Value :=
  .ofMembers [("level", .ofString e.level.label), ("fields", e.fields),
    ("target", .ofString e.target)]

/-- An entry as a line to be read by people. -/
def line (e : Entry) : String :=
  e.details.foldl (fun line (name, v) => line ++ " " ++ name ++ "=" ++ v.render)
    (e.level.label ++ " " ++ e.target ++ ": " ++ e.message)

end Entry

end WaitingRoom.Logging
