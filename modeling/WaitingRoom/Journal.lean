import WaitingRoom.Logging.Entry
import WaitingRoom.Mongo.Archive
import WaitingRoom.Postgres.Archive

/-!
# The journal

What a run of the program leaves behind: the entries it logs and what it asks of
databases, each kept with the latest first.
-/

namespace WaitingRoom

open Logging (Entry Level)

/-- The entries logged and the questions replied to, the latest first. -/
structure Journal where
  entries : List Entry := []
  commands : List (Mongo.Collection × Mongo.Command) := []
  queries : List Postgres.Query := []

namespace Journal

/-- Adds an entry. -/
def log (j : Journal) (e : Entry) : Journal := { j with entries := e :: j.entries }

/-- Puts a command to a document database whose replies depend on the command alone. -/
def command (reply : Mongo.Command → Option Mongo.Reply) (collection : Mongo.Collection)
    (c : Mongo.Command) (j : Journal) : Option Mongo.Reply × Journal :=
  match reply c with
  | some r => (some r, { j with commands := (collection, c) :: j.commands })
  | none => (none, j)

/-- Puts a query to a relational database whose replies depend on the query alone. -/
def query (reply : Postgres.Query → Option Postgres.Reply) (q : Postgres.Query) (j : Journal) :
    Option Postgres.Reply × Journal :=
  match reply q with
  | some r => (some r, { j with queries := q :: j.queries })
  | none => (none, j)

end Journal

end WaitingRoom
