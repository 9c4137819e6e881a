import WaitingRoom.Dialogue
import WaitingRoom.Listing
import WaitingRoom.Postgres.Pattern
import WaitingRoom.Postgres.Row

/-!
# Records in a relational database

What is asked of the database to list, read, write, delete and fetch records, and what
is made of its replies. Options that make no sense are refused before anything is asked.
-/

namespace WaitingRoom.Postgres

/-- A conversation with a relational database. -/
abbrev Talk (α : Type) := Dialogue Query Reply (Except Failure α)

/-- The database refused a statement, or its reply cannot be read. -/
def fault : Failure := .internal "postgres: *"

/-- What a condition is bound to, as far as a listing goes: the owner, and the pattern to
search with. -/
def scopeValues (user : String) (o : ListOptions) : List Datum :=
  .text user :: (o.searchTerm.map fun term => Datum.text (Pattern.containing term)).toList

/-- The conditions of a listing: the owner, hidden records left out unless they are asked
for, and the text searched for in the local id or the name. -/
def scopeConditions (o : ListOptions) : List Condition :=
  [.equals .userId 1] ++
    (if o.showHidden then [] else [.isFalse .hidden]) ++
    if o.searchTerm.isSome then [.anyLike [.localId, .name] 2] else []

/-- The column of a key. -/
def columnOf : SortKey → Column
  | .localId => .localId
  | .name => .name
  | .createdAt => .createdAt
  | .updatedAt => .updatedAt

/-- The order of a listing: equal keys are told apart by local id. -/
def directions (order : SortOrder) : List Direction :=
  let byKey : Direction := { column := columnOf order.key, descending := order.descending }
  if order.key = .localId then [byKey] else [byKey, { column := .localId }]

/-- How many records count in a listing. -/
def countQuery (user : String) (o : ListOptions) : Query where
  statement := .count (scopeConditions o)
  values := scopeValues user o

/-- The records in the window of a listing. -/
def pageQuery (user : String) (o : ListOptions) (order : SortOrder) : Query where
  statement :=
    let bound := (scopeValues user o).length
    .select (scopeConditions o) (directions order) (some ⟨bound + 1, bound + 2⟩)
  values := scopeValues user o ++ [.integer o.limit, .integer o.offset]

/-- The records of all rows, if all of them can be read. -/
def devices (rows : List Row) : Except Failure (List Device) :=
  match rows.mapM Row.device? with
  | some ds => .ok ds
  | none => .error fault

/-- Lists the records of a user, and how many there are in all. -/
def list (user : String) (o : ListOptions) : Talk (List Device × Int) :=
  match o.order with
  | .error f => .done (.error f)
  | .ok order =>
    .ask (countQuery user o) fun
      | .counted (some total) =>
        .ask (pageQuery user o order) fun
          | .rows rows => .done ((devices rows).map (·, total))
          | _ => .done (.error fault)
      | _ => .done (.error fault)

/-- Reads the record with the given local id. -/
def read (id : String) : Talk Device :=
  .ask { statement := .select [.equals .localId 1] [] none, values := [.text id] } fun
    | .rows [] => .done (.error (.noDevice id))
    | .rows [row] =>
      match row.device? with
      | some d => .done (.ok d)
      | none => .done (.error fault)
    | _ => .done (.error fault)

/-- A statement whose reply says no more than whether it was carried out. -/
def carryOut (q : Query) : Talk Unit :=
  .ask q fun
    | .carriedOut => .done (.ok ())
    | _ => .done (.error fault)

/-- Writes a record. -/
def write (d : Device) : Talk Unit :=
  carryOut { statement := .upsert, values := Column.all.map (Row.ofDevice d) }

/-- Deletes the record with the given local id. -/
def remove (id : String) : Talk Unit :=
  carryOut { statement := .delete [.equals .localId 1], values := [.text id] }

/-- A window of all records, in ascending order of their local ids. What is negative
counts as zero. -/
def fetchQuery (offset limit : Int) : Query where
  statement := .select [] [{ column := .localId }] (some ⟨1, 2⟩)
  values := [.integer (max limit 0), .integer (max offset 0)]

/-- Fetches a window of all records. -/
def fetch (offset limit : Int) : Talk (List Device) :=
  .ask (fetchQuery offset limit) fun
    | .rows rows => .done (devices rows)
    | _ => .done (.error fault)

/-- Sets the table up, unless it is there. -/
def prepare : Talk Unit := carryOut { statement := .createTable }

end WaitingRoom.Postgres
