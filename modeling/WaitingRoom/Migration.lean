import WaitingRoom.Network

/-!
# Migration

Copies all records of one database into another one. Both are connected to first, and
closed whatever becomes of the copy.
-/

namespace WaitingRoom

open Logging (Entry Level)

/-- Why a migration failed: source and target are the same, one of them cannot be
connected to, or the copy broke off. -/
inductive MigrationFailure
  | sameBackend (backend : Backend)
  | sourceOutOfReach (source : Backend) (why : Failure)
  | targetOutOfReach (target : Backend) (why : Failure)
  | brokenOff (why : Failure)
  deriving DecidableEq, Repr

/-- The words of a migration failure. -/
def MigrationFailure.message : MigrationFailure → String
  | sameBackend backend => "Migration source and target are both '" ++ backend.name ++ "'"
  | sourceOutOfReach source _ => "Failed to connect migration source '" ++ source.name ++ "'"
  | targetOutOfReach target _ => "Failed to connect migration target '" ++ target.name ++ "'"
  | brokenOff why => why.message

namespace Migration

/-- The source and the target of a migration, as details of a log entry. -/
def ends (source target : Backend) : List (String × Json.Value) :=
  [("source", .ofString source.name), ("target", .ofString target.name)]

/-- What is logged when a copy notices something. -/
def noteEntry (source target : Backend) (note : CopyNote) : Entry :=
  let entry (level : Level) (message : String) (details : List (String × Json.Value)) : Entry :=
    ⟨level, "waitroom_core::persistence::migration", message, details⟩
  match note with
  | .started batch =>
    entry .info "Starting device migration"
      (ends source target ++ [("batch_size", .ofInt batch)])
  | .page offset fetched =>
    entry .debug "Migrating batch" [("offset", .ofInt offset), ("fetched", .ofInt fetched)]
  | .aborted localId copied failure =>
    entry .error ("Migration aborted: " ++ failure.message)
      [("local_id", .ofString localId), ("copied", .ofNat copied)]
  | .finished copied => entry .info "Device migration finished" [("copied", .ofNat copied)]

/-- The route from one archive to another. -/
def route (source target : OpenArchive) : CopyRoute Journal where
  fetch := source.fetch
  write := target.write
  note n j := j.log (noteEntry source.backend target.backend n)

/-- What is logged about a migration as a whole. -/
def entry (level : Level) (message : String) (details : List (String × Json.Value)) : Entry :=
  ⟨level, "waitroom_server::migrate", message, details⟩

/-- Copies all records of one archive into another. -/
def copyAll (source target : OpenArchive) (j : Journal) :
    Option (Except Failure Nat) × Journal :=
  let both := ends source.backend target.backend
  match (route source target).copy CopyRoute.defaultBatch j with
  | (none, j) => (none, j)
  | (some (.ok copied), j) =>
    (some (.ok copied),
      j.log (entry .info "Migration finished" (both ++ [("copied", .ofNat copied)])))
  | (some (.error f), j) =>
    (some (.error f), j.log (entry .error ("Migration failed: " ++ f.message) both))

/-- Migrates from one kind of database to another. Nothing is answered, and nothing closed,
if the copy ran out of offsets. -/
def run (n : Network) (s : StoreSettings) (source target : Backend) (j : Journal) :
    Option (Except MigrationFailure Nat) × Journal :=
  if source = target then (some (.error (.sameBackend source)), j)
  else
    let j := j.log (entry .info "Starting migration" (ends source target))
    match source.connect n s j with
    | (.error f, j) => (some (.error (.sourceOutOfReach source f)), j)
    | (.ok origin, j) =>
      match target.connect n s j with
      | (.error f, j) => (some (.error (.targetOutOfReach target f)), origin.close j)
      | (.ok destination, j) =>
        match copyAll origin destination j with
        | (none, j) => (none, j)
        | (some copied, j) =>
          (some (copied.mapError .brokenOff), destination.close (origin.close j))

end Migration

end WaitingRoom
