import WaitingRoom.Dialogue
import WaitingRoom.Postgres.Row
import WaitingRoom.Proofs.Postgres.Like
import WaitingRoom.Proofs.Store.Ordering
import WaitingRoom.Store

/-!
# What statements mean

A table is its rows, in no particular order. Statements are carried out on it as the language
has it: a comparison with null is never true, texts are in the order of their bytes, patterns
do not tell the letters `A` to `Z` from `a` to `z`, and the window is laid over the rows once
they are in order. A server refuses a statement unless its places are just those that are
bound.
-/

namespace WaitingRoom.Postgres

namespace Datum

/-- Whether two contents are known to be equal. -/
def isEqual : Datum → Datum → Bool
  | null, _ | _, null => false
  | a, b => a = b

/-- Whether a content is known to be a text like a pattern, whatever the case of letters. -/
def isLike : Datum → Datum → Bool
  | text content, text pattern => Pattern.isLike Char.toLower pattern.toList content.toList
  | _, _ => false

/-- What a content is ordered by. The contents of a column are of one kind; null comes after
all others. -/
def weight : Datum → Weight
  | text content => .ofText 0 content
  | integer value => .ofNumber 1 value
  | truth value => .ofNumber 2 (if value then 1 else 0)
  | time micros => .ofNumber 3 micros
  | json content => .ofText 4 content
  | null => .ofNumber 5 0

end Datum

/-- How two rows compare in a direction. -/
def Direction.compareRows (d : Direction) (a b : Row) : Ordering :=
  directed d.descending ((a d.column).weight.compareTo (b d.column).weight)

/-- How two rows compare in an order. -/
def compareRows (order : List Direction) : Row → Row → Ordering :=
  compareAll (order.map Direction.compareRows)

instance (order : List Direction) : Std.TransCmp (compareRows order) := by
  apply transCmp_compareAll
  intro cmp hcmp
  obtain ⟨d, -, rfl⟩ := List.mem_map.mp hcmp
  have hcolumn : Std.TransCmp fun a b : Row => (a d.column).weight.compareTo (b d.column).weight :=
    transCmp_key Weight.compareTo fun row : Row => (row d.column).weight
  exact transCmp_directed _ d.descending

namespace Query

/-- The value that is bound to a place. -/
def bound (q : Query) (place : Nat) : Datum :=
  if place = 0 then .null else q.values.getD (place - 1) .null

/-- Whether the places of the statement are those that values are bound to. -/
def isBound (q : Query) : Bool :=
  q.statement.places.all (fun place => 1 ≤ place && place ≤ q.values.length) &&
    (List.range' 1 q.values.length).all fun place => q.statement.places.contains place

end Query

/-- Whether a row meets a condition. -/
def Condition.isMet (bound : Nat → Datum) (row : Row) : Condition → Bool
  | equals column place => (row column).isEqual (bound place)
  | isFalse column => (row column).isEqual (.truth false)
  | anyLike columns place => columns.any fun column => (row column).isLike (bound place)

/-- The rows of a table. -/
abbrev Table := List Row

namespace Table

/-- The rows that meet all conditions. -/
def meeting (table : Table) (bound : Nat → Datum) (conditions : List Condition) : List Row :=
  table.filter fun row => conditions.all (Condition.isMet bound row)

/-- The rows in an order. -/
def inOrder (rows : List Row) (order : List Direction) : List Row :=
  rows.mergeSort fun a b => (compareRows order a b).isLE

/-- The rows that a window lets through. Bounds that are no numbers or negative are refused. -/
def through (rows : List Row) (bound : Nat → Datum) : Option Window → Reply
  | none => .rows rows
  | some window =>
    match bound window.limit, bound window.offset with
    | .integer limit, .integer offset =>
      if limit < 0 || offset < 0 then .refused
      else .rows ((rows.drop offset.toNat).take limit.toNat)
    | _, _ => .refused

/-- The row of the values bound to the places of all columns. -/
def boundRow (bound : Nat → Datum) : Row := fun column => bound (Column.all.idxOf column + 1)

/-- The values a record is written with are put into the columns of its row. -/
theorem boundRow_ofDevice (d : Device) :
    boundRow (Query.bound { statement := .upsert, values := Column.all.map (Row.ofDevice d) }) =
      Row.ofDevice d := by
  funext column
  cases column <;> rfl

/-- Carries out a statement. -/
def carryOut (q : Query) (table : Table) : Reply × Table :=
  match q.statement with
  | .createTable => (.carriedOut, table)
  | .count conditions => (.counted (some (table.meeting q.bound conditions).length), table)
  | .select conditions order window =>
    (through (inOrder (table.meeting q.bound conditions) order) q.bound window, table)
  | .upsert =>
    let row := boundRow q.bound
    (.carriedOut, row :: table.filter fun other => !(other .localId).isEqual (row .localId))
  | .delete conditions =>
    (.carriedOut, table.filter fun row => !conditions.all (Condition.isMet q.bound row))

/-- Replies to a statement. -/
def serve (q : Query) (table : Table) : Option Reply × Table :=
  if q.isBound then
    let (reply, table) := carryOut q table
    (some reply, table)
  else (some .refused, table)

/-- A count counts the rows that meet its conditions. -/
theorem serve_count {q : Query} {table : Table} {conditions : List Condition}
    (hbound : q.isBound = true) (hcount : q.statement = .count conditions) :
    serve q table = (some (.counted (some (table.meeting q.bound conditions).length)), table) := by
  rw [serve, hbound, carryOut, hcount]
  rfl

/-- A selection gives the rows that meet its conditions, in its order, as far as its window
lets them through. -/
theorem serve_select {q : Query} {table : Table} {conditions : List Condition}
    {order : List Direction} {window : Option Window} (hbound : q.isBound = true)
    (hselect : q.statement = .select conditions order window) :
    serve q table =
      (some (through (inOrder (table.meeting q.bound conditions) order) q.bound window),
        table) := by
  rw [serve, hbound, carryOut, hselect]
  rfl

/-- The rows are those of the records of a store. -/
def Keeps (table : Table) (s : Store) : Prop := table.Perm (s.records.map Row.ofDevice)

end Table

end WaitingRoom.Postgres
