import WaitingRoom.Journal
import WaitingRoom.Postgres.ConnectionText
import WaitingRoom.Settings
import WaitingRoom.Store.Copy
import WaitingRoom.Store.Service

/-!
# Databases in reach

Which databases reply at which connection texts, and the archives that connecting to them
opens. Connecting sets up what records need.
-/

namespace WaitingRoom

open Logging (Entry)

/-- The databases that reply at connection texts. -/
structure Network where
  mongo : String → Option (Mongo.Command → Option Mongo.Reply) := fun _ => none
  postgres : String → Option (Postgres.Query → Option Postgres.Reply) := fun _ => none

/-- The network in which nothing replies. -/
def Network.deserted : Network := {}

/-- A database that has been connected to: its kind, how pages are fetched from it and
records written to it, and what is logged when it is closed. -/
structure OpenArchive where
  backend : Backend
  fetch : (offset limit : Int) → Journal → Except Failure (List Device) × Journal
  write : Device → Journal → Except Failure Unit × Journal
  closing : Entry

namespace OpenArchive

/-- Closes an archive. -/
def close (a : OpenArchive) (j : Journal) : Journal := j.log a.closing

end OpenArchive

namespace Mongo

/-- What is logged about a document database. -/
def entry (message : String) (details : List (String × Json.Value) := []) : Entry :=
  ⟨.info, "waitroom_core::persistence::mongo", message, details⟩

/-- Connects to a document database. -/
def connect (n : Network) (s : StoreSettings) (j : Journal) :
    Except Failure OpenArchive × Journal :=
  match n.mongo s.mongoUrl with
  | none => (.error fault, j)
  | some reply =>
    let serve := Journal.command reply ⟨s.mongoDatabase, s.mongoCollection⟩
    let ask {α : Type} (talk : Talk α) (j : Journal) : Except Failure α × Journal :=
      let (r, j) := talk.run serve j
      (StoreService.orTimeout r, j)
    match ask prepare j with
    | (.error f, j) => (.error f, j)
    | (.ok (), j) =>
      (.ok
        { backend := .mongo
          fetch := fun offset limit => ask (fetch offset limit)
          write := fun d => ask (write d)
          closing := entry "MongoDB client shut down" },
        j.log (entry "Connected to MongoDB" [("database", .ofString s.mongoDatabase)]))

end Mongo

namespace Postgres

/-- What is logged about a relational database. -/
def entry (message : String) : Entry :=
  ⟨.info, "waitroom_core::persistence::postgres", message, []⟩

/-- The connection text cannot be used. -/
def unusable : Failure := .internal "failed to create postgres pool: *"

/-- No database replies at the connection text. -/
def outOfReach : Failure := .internal "postgres pool: *"

/-- Connects to a relational database. -/
def connect (n : Network) (s : StoreSettings) (j : Journal) :
    Except Failure OpenArchive × Journal :=
  match n.postgres s.postgresConnStr with
  | none =>
    (.error (if ConnectionText.isUsable s.postgresConnStr then outOfReach else unusable), j)
  | some reply =>
    let ask {α : Type} (talk : Talk α) (j : Journal) : Except Failure α × Journal :=
      let (r, j) := talk.run (Journal.query reply) j
      (StoreService.orTimeout r, j)
    match ask prepare j with
    | (.error f, j) => (.error f, j)
    | (.ok (), j) =>
      (.ok
        { backend := .postgres
          fetch := fun offset limit => ask (fetch offset limit)
          write := fun d => ask (write d)
          closing := entry "PostgreSQL pool closed" },
        j.log (entry "Connected to PostgreSQL"))

end Postgres

namespace Backend

/-- Connects to the database of a kind. -/
def connect : Backend → Network → StoreSettings → Journal → Except Failure OpenArchive × Journal
  | mongo => Mongo.connect
  | postgres => Postgres.connect

end Backend

end WaitingRoom
