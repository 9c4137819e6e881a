import WaitingRoom.Dialogue
import WaitingRoom.Listing
import WaitingRoom.Mongo.Command
import WaitingRoom.Mongo.Document

/-!
# Records in a document database

What is asked of the database to list, read, write, delete and fetch records, and what
is made of its replies. Options that make no sense are refused before anything is asked,
and since a limit of zero is none to the database, nothing is looked for in that case.
-/

namespace WaitingRoom.Mongo

/-- A conversation with a document database. -/
abbrev Talk (α : Type) := Dialogue Command Reply (Except Failure α)

/-- The database refused a command, or its reply cannot be read. -/
def fault : Failure := .internal "mongodb: *"

/-- The filter of a listing: the owner, hidden records left out unless they are asked for,
and the words searched for. -/
def scope (user : String) (o : ListOptions) : List Condition :=
  [.hasText .userId user] ++
    (if o.showHidden then [] else [.hasTruth .hidden false]) ++
    (o.searchTerm.map Condition.hasWords).toList

/-- The place of a key. -/
def pathOf : SortKey → Path
  | .localId => .localId
  | .name => .name
  | .createdAt => .createdAt
  | .updatedAt => .updatedAt

/-- The order of a listing: equal keys are told apart by local id. -/
def directions (order : SortOrder) : List Direction :=
  let byKey : Direction := { path := pathOf order.key, descending := order.descending }
  if order.key = .localId then [byKey] else [byKey, { path := .localId }]

/-- The records in the window of a listing. -/
def pageCommand (user : String) (o : ListOptions) (order : SortOrder) : Command :=
  .find (scope user o) (directions order) (some o.offset) o.limit

/-- The records of all documents, if all of them can be read. -/
def devices (documents : List Value) : Except Failure (List Device) :=
  match documents.mapM Document.device? with
  | some ds => .ok ds
  | none => .error fault

/-- The count a reply gives; it is never negative. -/
def total? : Option Int → Option Int
  | none => some 0
  | some n => if n < 0 then none else some n

/-- Lists the records of a user, and how many there are in all. -/
def list (user : String) (o : ListOptions) : Talk (List Device × Int) :=
  match o.order with
  | .error f => .done (.error f)
  | .ok order =>
    .ask (.count (scope user o)) fun
      | .counted n =>
        match total? n with
        | none => .done (.error fault)
        | some total =>
          if o.limit = 0 then .done (.ok ([], total))
          else
            .ask (pageCommand user o order) fun
              | .documents documents => .done ((devices documents).map (·, total))
              | _ => .done (.error fault)
      | _ => .done (.error fault)

/-- Reads the record with the given local id. -/
def read (id : String) : Talk Device :=
  .ask (.find [.hasText .localId id] [] none 1) fun
    | .documents [] => .done (.error (.noDevice id))
    | .documents (document :: _) =>
      match Document.device? document with
      | some d => .done (.ok d)
      | none => .done (.error fault)
    | _ => .done (.error fault)

/-- A command whose reply says no more than whether it was carried out. -/
def carryOut (c : Command) : Talk Unit :=
  .ask c fun
    | .carriedOut => .done (.ok ())
    | _ => .done (.error fault)

/-- Writes a record. -/
def write (d : Device) : Talk Unit :=
  carryOut (.replace [.hasText .localId d.localId] (Document.ofDevice d))

/-- Deletes the record with the given local id. -/
def remove (id : String) : Talk Unit := carryOut (.delete [.hasText .localId id])

/-- A window of all records, in ascending order of their local ids. A negative offset
counts as zero. -/
def fetchCommand (offset limit : Int) : Command :=
  .find [] [{ path := .localId }] (some (max offset 0)) limit

/-- Fetches a window of all records; one that has no room is not asked for. -/
def fetch (offset limit : Int) : Talk (List Device) :=
  if limit ≤ 0 then .done (.ok [])
  else
    .ask (fetchCommand offset limit) fun
      | .documents documents => .done (devices documents)
      | _ => .done (.error fault)

/-- The indexes records are looked up by; local ids tell records apart. -/
def indexes : List Index :=
  [.ascending .localId "devicelocalidindex" true,
   .ascending .name "devicenameindex" false,
   .ascending .userId "deviceuseridindex" false,
   .ascending .hidden "devicehiddenindex" false,
   .ascending .createdAt "devicecreatedatindex" false,
   .ascending .updatedAt "deviceupdatedatindex" false,
   .words .searchTokens "searchtokenindex"]

/-- Sets the indexes up, unless they are there. -/
def prepare : Talk Unit := carryOut (.createIndexes indexes)

end WaitingRoom.Mongo
