import WaitingRoom.Dialogue
import WaitingRoom.Mongo.Command
import WaitingRoom.Mongo.Document
import WaitingRoom.Proofs.Store.Ordering
import WaitingRoom.Store

/-!
# What commands mean

A collection holds its documents in no particular order. Commands are carried out on it as the
database has it: a place leads from record to record by the names of members, a condition is
not met where its place leads nowhere, values of different kinds are in the order of the kinds,
the window is laid over the documents once they are in order, and a limit of zero is none.
Which documents have the words of a search in them is left to the database.
-/

namespace WaitingRoom.Mongo

/-- The names that lead to a place, from the outermost record inwards. -/
def Path.steps : Path → List String
  | localId => ["device", "local_id"]
  | name => ["device", "name"]
  | userId => ["user_id"]
  | hidden => ["hidden"]
  | createdAt => ["created_at"]
  | updatedAt => ["updated_at"]
  | searchTokens => ["search_tokens"]

/-- A place is named by the names that lead to it. -/
theorem Path.text_eq_intercalate (path : Path) : path.text = ".".intercalate path.steps := by
  cases path <;> rfl

namespace Value

/-- The value that names lead to, if there is one. -/
def find? : List String → Value → Option Value
  | [], v => some v
  | name :: rest, record members => (members.lookup name).bind (find? rest)
  | _ :: _, _ => none

/-- The value at a place; null where there is none. -/
def valueAt (path : Path) (v : Value) : Value := (v.find? path.steps).getD .null

/-- What a value is ordered by, as far as its kind is one that listings are ordered by. -/
def weight : Value → Weight
  | null => .ofNumber 0 0
  | integer value => .ofNumber 1 value
  | text content => .ofText 2 content
  | record _ => .ofNumber 3 0
  | list _ => .ofNumber 4 0
  | truth value => .ofNumber 5 (if value then 1 else 0)
  | date millis => .ofNumber 6 millis
  | other => .ofNumber 7 0

end Value

/-- How two documents compare in a direction. -/
def Direction.compareDocuments (d : Direction) (a b : Value) : Ordering :=
  directed d.descending ((a.valueAt d.path).weight.compareTo (b.valueAt d.path).weight)

/-- How two documents compare in an order. -/
def compareDocuments (order : List Direction) : Value → Value → Ordering :=
  compareAll (order.map Direction.compareDocuments)

instance (order : List Direction) : Std.TransCmp (compareDocuments order) := by
  apply transCmp_compareAll
  intro cmp hcmp
  obtain ⟨d, -, rfl⟩ := List.mem_map.mp hcmp
  have hplace : Std.TransCmp fun a b : Value =>
      (a.valueAt d.path).weight.compareTo (b.valueAt d.path).weight :=
    transCmp_key Weight.compareTo fun v : Value => (v.valueAt d.path).weight
  exact transCmp_directed _ d.descending

/-- Whether a document meets a condition. -/
def Condition.isMet (words : String → Value → Bool) (document : Value) : Condition → Bool
  | hasText path content => (document.valueAt path).text? == some content
  | hasTruth path value => (document.valueAt path).truth? == some value
  | hasWords search => words search document

/-- The documents of a collection. -/
abbrev Holding := List Value

namespace Holding

variable (words : String → Value → Bool)

/-- Whether a document meets all conditions of a filter. -/
def isMet (filter : List Condition) (document : Value) : Bool :=
  filter.all (Condition.isMet words document)

/-- The documents in an order. -/
def inOrder (documents : List Value) (order : List Direction) : List Value :=
  documents.mergeSort fun a b => (compareDocuments order a b).isLE

/-- The documents that a window lets through. A negative bound is refused. -/
def through (documents : List Value) (skip : Option Int) (limit : Int) : Reply :=
  let skip := skip.getD 0
  if skip < 0 || limit < 0 then .refused
  else
    let rest := documents.drop skip.toNat
    .documents (if limit = 0 then rest else rest.take limit.toNat)

/-- Puts a document in place of the first that meets the filter, or adds it. -/
def replace (filter : List Condition) (document : Value) : Holding → Holding
  | [] => [document]
  | first :: rest =>
    if isMet words filter first then document :: rest else first :: replace filter document rest

/-- Carries out a command. -/
def carryOut (c : Command) (holding : Holding) : Reply × Holding :=
  match c with
  | .createIndexes _ => (.carriedOut, holding)
  | .count filter =>
    let n := (holding.filter (isMet words filter)).length
    (.counted (if n = 0 then none else some n), holding)
  | .find filter order skip limit =>
    (through (inOrder (holding.filter (isMet words filter)) order) skip limit, holding)
  | .replace filter document => (.carriedOut, holding.replace words filter document)
  | .delete filter => (.carriedOut, holding.filter fun document => !isMet words filter document)

/-- Replies to a command. -/
def serve (c : Command) (holding : Holding) : Option Reply × Holding :=
  let (reply, holding) := carryOut words c holding
  (some reply, holding)

/-- The documents are those of the records of a store. -/
def Keeps (holding : Holding) (s : Store) : Prop :=
  holding.Perm (s.records.map Document.ofDevice)

end Holding

end WaitingRoom.Mongo
