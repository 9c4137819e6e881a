import WaitingRoom.Mongo.Value

/-!
# Commands

The commands that are put to a document database, and the fields of the messages that
carry them.
-/

namespace WaitingRoom.Mongo

/-- The places of a document that filters, orders and indexes refer to. -/
inductive Path
  | localId
  | name
  | userId
  | hidden
  | createdAt
  | updatedAt
  | searchTokens
  deriving DecidableEq, Repr

/-- The name of a place; a dot leads into the nested record. -/
def Path.text : Path → String
  | localId => "device.local_id"
  | name => "device.name"
  | userId => "user_id"
  | hidden => "hidden"
  | createdAt => "created_at"
  | updatedAt => "updated_at"
  | searchTokens => "search_tokens"

/-- A condition on a document: a place holds a text or a truth value, or the text that
word search looks at has words in it. -/
inductive Condition
  | hasText (path : Path) (content : String)
  | hasTruth (path : Path) (value : Bool)
  | hasWords (search : String)
  deriving DecidableEq, Repr

/-- A direction to order documents in by a place. -/
structure Direction where
  path : Path
  descending : Bool := false
  deriving DecidableEq, Repr

/-- An index over a place: one for words, or one in ascending order, in which each value
may be told to occur once only. -/
inductive Index
  | ascending (path : Path) (name : String) (unique : Bool)
  | words (path : Path) (name : String)
  deriving DecidableEq, Repr

/-- A command: it sets up indexes, counts documents, finds documents, puts one in place of
the document that meets the filter, or deletes documents. All conditions of a filter have
to be met. A limit of zero is none. -/
inductive Command
  | createIndexes (indexes : List Index)
  | count (filter : List Condition)
  | find (filter : List Condition) (order : List Direction) (skip : Option Int) (limit : Int)
  | replace (filter : List Condition) (document : Value)
  | delete (filter : List Condition)

/-- A collection of documents and the database it is in. -/
structure Collection where
  database : String
  name : String
  deriving DecidableEq, Repr

namespace Condition

/-- A condition as a member of a filter. -/
def member : Condition → String × Value
  | hasText path content => (path.text, .text content)
  | hasTruth path value => (path.text, .truth value)
  | hasWords search => ("$text", .record [("$search", .text search)])

/-- A filter as a record. -/
def filterRecord (filter : List Condition) : Value := .record (filter.map member)

end Condition

/-- An order as a record. -/
def Direction.orderRecord (order : List Direction) : Value :=
  .record (order.map fun d => (d.path.text, .integer (if d.descending then -1 else 1)))

/-- An index as a record. -/
def Index.toRecord : Index → Value
  | ascending path name unique =>
    .record [("key", .record [(path.text, .integer 1)]), ("name", .text name),
      ("unique", .truth unique)]
  | words path name =>
    .record [("key", .record [(path.text, .text "text")]), ("name", .text name)]

namespace Command

/-- The name of a command. Documents are counted by grouping all that match. -/
def name : Command → String
  | createIndexes _ => "createIndexes"
  | count _ => "aggregate"
  | find .. => "find"
  | replace .. => "update"
  | delete _ => "delete"

/-- The steps that count the documents that meet a filter. -/
def countSteps (filter : List Condition) : Value :=
  .list
    [.record [("$match", Condition.filterRecord filter)],
     .record [("$group", .record
       [("_id", .integer 1), ("n", .record [("$sum", .integer 1)])])]]

/-- The fields a command has besides its name and database. -/
def arguments : Command → List (String × Value)
  | createIndexes indexes => [("indexes", .list (indexes.map Index.toRecord))]
  | count filter => [("pipeline", countSteps filter)]
  | find filter order skip limit =>
    [("filter", Condition.filterRecord filter), ("limit", .integer limit)] ++
      (skip.map fun n => ("skip", Value.integer n)).toList ++
      if order.isEmpty then [] else [("sort", Direction.orderRecord order)]
  | replace filter document =>
    [("updates", .list [.record [("q", Condition.filterRecord filter), ("u", document),
      ("upsert", .truth true)]])]
  | delete filter =>
    [("deletes", .list [.record [("q", Condition.filterRecord filter), ("limit", .integer 0)]])]

/-- All fields of a command, in the order of their names. -/
def fields (collection : Collection) (command : Command) : List (String × Value) :=
  let named := [("$db", Value.text collection.database),
    (command.name, Value.text collection.name)]
  (named ++ command.arguments).mergeSort fun a b => decide (a.1 ≤ b.1)

end Command

/-- What a server replies: it refuses the command, counts documents, gives documents, or
has carried the command out. Where nothing matches there is no count. -/
inductive Reply
  | refused
  | counted (n : Option Int)
  | documents (documents : List Value)
  | carriedOut

end WaitingRoom.Mongo
