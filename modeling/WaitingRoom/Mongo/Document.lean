import WaitingRoom.Device
import WaitingRoom.Mongo.Value

/-!
# Records as documents

How a record is laid out in its document, and what a document is read as. The fields that
devices bring along are nested; owner, visibility, both times and the text that word
search looks at stand beside them. Both times and the local id have to be there, all other
fields may be absent.
-/

namespace WaitingRoom.Mongo

open Time (Instant)

namespace Value

/-- Reads a text. -/
def text? : Value → Option String
  | text content => some content
  | _ => none

/-- Reads a truth value. -/
def truth? : Value → Option Bool
  | truth value => some value
  | _ => none

/-- Reads a date. -/
def instant? : Value → Option Instant
  | date millis => some (Instant.ofMillis millis)
  | _ => none

/-- Reads a list of values that may be null. -/
def nullableList? {α : Type} (read : Value → Option α) : Value → Option (Option (List α))
  | null => some none
  | list items => (items.mapM read).map some
  | _ => none

/-- The members of a record; a list gives the values of the names in their order, as far
as it goes. -/
def members? (names : List String) : Value → Option (List (String × Value))
  | record members => some members
  | list items => if items.length ≤ names.length then some (names.zip items) else none
  | _ => none

end Value

/-- Reads a member that has to be there. -/
def required? {α : Type} (members : List (String × Value)) (name : String)
    (read : Value → Option α) : Option α :=
  (members.lookup name).bind read

/-- Reads a member that may be absent. -/
def optional? {α : Type} (members : List (String × Value)) (name : String) (absent : α)
    (read : Value → Option α) : Option α :=
  match members.lookup name with
  | some v => read v
  | none => some absent

namespace Document

/-- The date of an instant, rounded down to a whole millisecond. -/
def dateOf (t : Instant) : Value := .date t.toMillis

/-- An attribute as a record; an empty origin is left out. -/
def ofAttribute (a : Attribute) : Value :=
  .record ([("key", .text a.key), ("value", .text a.value)] ++
    if a.origin.isEmpty then [] else [("origin", .text a.origin)])

/-- The attribute of a record. -/
def attribute? (v : Value) : Option Attribute := do
  let members ← v.members? ["key", "value", "origin"]
  let key ← required? members "key" Value.text?
  let value ← required? members "value" Value.text?
  let origin ← optional? members "origin" "" Value.text?
  return { key, value, origin }

/-- The list of attributes, or null where none was given. -/
def ofAttributes : Option (List Attribute) → Value
  | none => .null
  | some attributes => .list (attributes.map ofAttribute)

/-- The document of a record. -/
def ofDevice (d : Device) : Value :=
  .record
    [("device", .record
      [("id", .text d.id),
       ("local_id", .text d.localId),
       ("name", .text d.name),
       ("device_type_id", .text d.deviceTypeId),
       ("attributes", ofAttributes d.attributes)]),
     ("user_id", .text d.userId),
     ("hidden", .truth d.hidden),
     ("created_at", dateOf d.createdAt),
     ("updated_at", dateOf d.updatedAt),
     ("search_tokens", .text d.searchTokens)]

/-- The record of a document, unless something is missing or of another kind. -/
def device? (v : Value) : Option Device := do
  let members ← v.members? []
  let inner ← required? members "device"
    (Value.members? ["id", "local_id", "name", "device_type_id", "attributes"])
  let id ← optional? inner "id" "" Value.text?
  let localId ← required? inner "local_id" Value.text?
  let name ← optional? inner "name" "" Value.text?
  let deviceTypeId ← optional? inner "device_type_id" "" Value.text?
  let attributes ← optional? inner "attributes" none (Value.nullableList? attribute?)
  let userId ← optional? members "user_id" "" Value.text?
  let hidden ← optional? members "hidden" false Value.truth?
  let createdAt ← required? members "created_at" Value.instant?
  let updatedAt ← required? members "updated_at" Value.instant?
  let _ ← optional? members "search_tokens" "" Value.text?
  return { id, localId, name, deviceTypeId, attributes, userId, hidden, createdAt, updatedAt }

end Document

end WaitingRoom.Mongo
