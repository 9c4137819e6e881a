import WaitingRoom.Device
import WaitingRoom.Postgres.Statement

/-!
# Records as rows

How a record is laid out in the columns of its row, and what a row is read as. A list of
attributes goes into one column as JSON. A column without content is read as the field's
default, except for the local id, which every row has.
-/

namespace WaitingRoom.Postgres

open Time (Instant)

namespace Datum

/-- Reads a column that may be without content; `none` where it holds something else. -/
def nullable? {α : Type} (read : Datum → Option α) : Datum → Option (Option α)
  | null => some none
  | datum => (read datum).map some

/-- Reads a text. -/
def text? : Datum → Option String
  | text content => some content
  | _ => none

/-- Reads a truth value. -/
def truth? : Datum → Option Bool
  | truth value => some value
  | _ => none

/-- Reads a point in time. -/
def time? : Datum → Option Instant
  | time micros => Instant.ofMicros? micros
  | _ => none

/-- Reads a list of attributes, which may be null. -/
def attributes? : Datum → Option (Option (List Attribute))
  | json content =>
    (Json.decodeText (Json.Value.asOption (Json.Value.asList Attribute.ofJson)) content).toOption
  | _ => none

end Datum

namespace Row

/-- The row of a record. A missing list of attributes is laid down as the empty one. -/
def ofDevice (d : Device) : Row
  | .localId => .text d.localId
  | .id => .text d.id
  | .name => .text d.name
  | .deviceTypeId => .text d.deviceTypeId
  | .attributes => .json (Json.Value.list (d.attributeList.map Attribute.toJson)).render
  | .userId => .text d.userId
  | .hidden => .truth d.hidden
  | .createdAt => .time d.createdAt.toMicros
  | .updatedAt => .time d.updatedAt.toMicros

/-- The record of a row, unless a column holds what it cannot. -/
def device? (row : Row) : Option Device := do
  let attributes ← (row .attributes).nullable? Datum.attributes?
  let localId ← (row .localId).text?
  let id ← (row .id).nullable? Datum.text?
  let name ← (row .name).nullable? Datum.text?
  let deviceTypeId ← (row .deviceTypeId).nullable? Datum.text?
  let userId ← (row .userId).nullable? Datum.text?
  let hidden ← (row .hidden).nullable? Datum.truth?
  let createdAt ← (row .createdAt).nullable? Datum.time?
  let updatedAt ← (row .updatedAt).nullable? Datum.time?
  return {
    localId
    id := id.getD ""
    name := name.getD ""
    deviceTypeId := deviceTypeId.getD ""
    attributes := attributes.join
    userId := userId.getD ""
    hidden := hidden.getD false
    createdAt := createdAt.getD Instant.epoch
    updatedAt := updatedAt.getD Instant.epoch }

end Row

end WaitingRoom.Postgres
