import WaitingRoom.Text.Decimal

/-!
# Statements

The statements that are put to a relational database. Records are the rows of one table.
The text of a statement never holds a value: it names places, numbered from one, and the
values bound to them go along with it.
-/

namespace WaitingRoom.Postgres

/-- The columns of the table of devices. -/
inductive Column
  | localId
  | id
  | name
  | deviceTypeId
  | attributes
  | userId
  | hidden
  | createdAt
  | updatedAt
  deriving DecidableEq, Repr

namespace Column

/-- The columns in the order they are listed in. -/
def all : List Column :=
  [localId, id, name, deviceTypeId, attributes, userId, hidden, createdAt, updatedAt]

/-- The name of a column. -/
def text : Column → String
  | localId => "local_id"
  | id => "id"
  | name => "name"
  | deviceTypeId => "device_type_id"
  | attributes => "attributes"
  | userId => "user_id"
  | hidden => "hidden"
  | createdAt => "created_at"
  | updatedAt => "updated_at"

/-- What a column is declared to hold. The local id tells rows apart. -/
def declaration : Column → String
  | localId => "TEXT PRIMARY KEY"
  | id | name | deviceTypeId | userId => "TEXT"
  | attributes => "JSON"
  | hidden => "BOOL"
  | createdAt | updatedAt => "TIMESTAMPTZ"

end Column

/-- A condition on a row: a column has the bound value, a column is false, or one of some
columns is like the bound pattern, in whatever case. -/
inductive Condition
  | equals (column : Column) (place : Nat)
  | isFalse (column : Column)
  | anyLike (columns : List Column) (place : Nat)
  deriving DecidableEq, Repr

/-- A direction to order rows in by a column. -/
structure Direction where
  column : Column
  descending : Bool := false
  deriving DecidableEq, Repr

/-- The places whose values limit an answer: how many rows at most, and how many are
passed over first. -/
structure Window where
  limit : Nat
  offset : Nat
  deriving DecidableEq, Repr

/-- A statement: it sets up the table, counts or selects the rows that meet all
conditions, writes a row in place of the one with its local id, or deletes rows. -/
inductive Statement
  | createTable
  | count (conditions : List Condition)
  | select (conditions : List Condition) (order : List Direction) (window : Option Window)
  | upsert
  | delete (conditions : List Condition)
  deriving DecidableEq, Repr

/-- A place in the text of a statement. -/
def placeText (place : Nat) : String := "$" ++ Text.ofNat place

namespace Condition

/-- The place of a condition, if it has one. -/
def places : Condition → List Nat
  | equals _ place => [place]
  | isFalse _ => []
  | anyLike _ place => [place]

/-- The text of a condition. -/
def text : Condition → String
  | equals column place => column.text ++ " = " ++ placeText place
  | isFalse column => column.text ++ " = false"
  | anyLike columns place =>
    "(" ++ " OR ".intercalate (columns.map fun c => c.text ++ " ILIKE " ++ placeText place) ++ ")"

/-- The text that restricts a statement to the rows that meet all conditions. -/
def restriction (conditions : List Condition) : String :=
  if conditions.isEmpty then "" else " WHERE " ++ " AND ".intercalate (conditions.map text)

end Condition

namespace Statement

/-- The places a statement names. -/
def places : Statement → List Nat
  | createTable => []
  | count conditions => conditions.flatMap Condition.places
  | select conditions _ window =>
    conditions.flatMap Condition.places ++
      match window with
      | some w => [w.limit, w.offset]
      | none => []
  | upsert => (List.range Column.all.length).map (· + 1)
  | delete conditions => conditions.flatMap Condition.places

/-- The text of an order. -/
def orderText (order : List Direction) : String :=
  if order.isEmpty then ""
  else " ORDER BY " ++
    ", ".intercalate (order.map fun d => d.column.text ++ if d.descending then " DESC" else " ASC")

/-- The text of a window. -/
def windowText : Option Window → String
  | some w => " LIMIT " ++ placeText w.limit ++ " OFFSET " ++ placeText w.offset
  | none => ""

/-- The names of all columns. -/
def columnList : String := ", ".intercalate (Column.all.map Column.text)

/-- The text of a statement. -/
def text : Statement → String
  | createTable =>
    "CREATE TABLE IF NOT EXISTS devices (\n" ++
      ",\n".intercalate (Column.all.map fun c => "    " ++ c.text ++ " " ++ c.declaration) ++ "\n)"
  | count conditions =>
    "SELECT COUNT(local_id) FROM devices" ++ Condition.restriction conditions
  | select conditions order window =>
    "SELECT " ++ columnList ++ " FROM devices" ++ Condition.restriction conditions ++
      orderText order ++ windowText window
  | upsert =>
    "INSERT INTO devices\n    (" ++ columnList ++ ")\n    VALUES (" ++
      ", ".intercalate (upsert.places.map placeText) ++
      ")\n    ON CONFLICT (local_id) DO UPDATE SET\n" ++
      ",\n".intercalate ((Column.all.filter (· ≠ .localId)).map fun c =>
        "        " ++ c.text ++ " = EXCLUDED." ++ c.text)
  | delete conditions => "DELETE FROM devices" ++ Condition.restriction conditions

end Statement

/-- The content of a row in a column, or a value bound to a place. Times are whole
microseconds, counted from the beginning of 2000. -/
inductive Datum
  | null
  | text (content : String)
  | integer (value : Int)
  | truth (value : Bool)
  | time (micros : Int)
  | json (content : String)
  deriving DecidableEq, Repr

/-- A statement with the values bound to its places, the first place first. -/
structure Query where
  statement : Statement
  values : List Datum := []
  deriving DecidableEq, Repr

/-- The content of a row. -/
abbrev Row := Column → Datum

/-- What a server replies: it refuses the statement, counts rows, gives rows, or has
carried the statement out. A count may be null. -/
inductive Reply
  | refused
  | counted (n : Option Int)
  | rows (rows : List Row)
  | carriedOut

end WaitingRoom.Postgres
