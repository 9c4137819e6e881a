import WaitingRoom.Json.Decode
import WaitingRoom.Json.Render
import WaitingRoom.Time.Stamp

/-!
# Devices

A device that was discovered and waits for its owner, and its form as JSON. The local
id is the key of a record; owner, visibility and both times are kept by the waiting
room itself.
-/

namespace WaitingRoom

open Json (Value Decoded Member)
open Time (Instant)

/-- A property of a device, with the place it was learned from. -/
structure Attribute where
  key : String
  value : String
  origin : String := ""
  deriving DecidableEq, Repr, Inhabited

/-- A device that waits for adoption. -/
structure Device where
  id : String := ""
  localId : String := ""
  name : String := ""
  deviceTypeId : String := ""
  attributes : Option (List Attribute) := none
  userId : String := ""
  hidden : Bool := false
  createdAt : Instant := Instant.epoch
  updatedAt : Instant := Instant.epoch
  deriving DecidableEq, Inhabited

namespace Attribute

/-- The fields of an attribute in their order; only the origin may be absent. -/
def fields : List (Member Attribute) :=
  [.of "key" Value.asText (fun a key => { a with key }) .refused,
   .of "value" Value.asText (fun a value => { a with value }) .refused,
   .of "origin" Value.asText (fun a origin => { a with origin })]

/-- Reads an attribute. -/
def ofJson : Value → Decoded Attribute := Value.asRecord ⟨"", "", ""⟩ fields

/-- An attribute as a record; an empty origin is left out. -/
def toJson (a : Attribute) : Value :=
  .ofMembers ([("key", .ofString a.key), ("value", .ofString a.value)] ++
    if a.origin.isEmpty then [] else [("origin", .ofString a.origin)])

end Attribute

/-- Reads a time stamp. -/
def readInstant (v : Value) : Decoded Instant := do
  match Time.Stamp.parse? (← v.asText) with
  | some t => .ok t
  | none => .error .mismatched

namespace Device

/-- The fields of a device in their order; each of them may be absent. -/
def fields : List (Member Device) :=
  [.of "id" Value.asText fun d id => { d with id },
   .of "local_id" Value.asText fun d localId => { d with localId },
   .of "name" Value.asText fun d name => { d with name },
   .of "device_type_id" Value.asText fun d deviceTypeId => { d with deviceTypeId },
   .of "attributes" (Value.asOption (Value.asList Attribute.ofJson))
     fun d attributes => { d with attributes },
   .of "user_id" Value.asText fun d userId => { d with userId },
   .of "hidden" Value.asTruth fun d hidden => { d with hidden },
   .of "created_at" readInstant fun d createdAt => { d with createdAt },
   .of "updated_at" readInstant fun d updatedAt => { d with updatedAt }]

/-- Reads a device. -/
def ofJson : Value → Decoded Device := Value.asRecord {} fields

/-- A list of attributes, or null where none was given. -/
def attributesToJson : Option (List Attribute) → Value
  | none => .null
  | some attributes => .list (attributes.map Attribute.toJson)

/-- A device as a record with all its fields. -/
def toJson (d : Device) : Value :=
  .ofMembers
    [("id", .ofString d.id),
     ("local_id", .ofString d.localId),
     ("name", .ofString d.name),
     ("device_type_id", .ofString d.deviceTypeId),
     ("attributes", attributesToJson d.attributes),
     ("user_id", .ofString d.userId),
     ("hidden", .truth d.hidden),
     ("created_at", .ofString (Time.Stamp.render d.createdAt)),
     ("updated_at", .ofString (Time.Stamp.render d.updatedAt))]

/-- Reads a text that is a device. -/
def parse (s : String) : Decoded Device := Json.decodeText ofJson s

/-- The text of a device. -/
def render (d : Device) : String := d.toJson.render

/-- A device with nothing but a local id and a name. -/
def named (localId name : String) : Device := { localId, name }

/-- The characters that separate words within a name. -/
def isSeparator (c : Char) : Bool :=
  c == '_' || c == '-' || c == '.' || c == ':' || c == '/'

/-- The name with a blank for each separator. -/
def spacedName (d : Device) : String :=
  String.ofList (d.name.toList.map fun c => if isSeparator c then ' ' else c)

/-- The text that word search looks at: local id, name, and the words of the name. -/
def searchTokens (d : Device) : String := d.localId ++ " " ++ d.name ++ " " ++ d.spacedName

/-- The attributes, a missing list taken as the empty one. -/
def attributeList (d : Device) : List Attribute := d.attributes.getD []

/-- Whether the record belongs to the user. -/
def isOwnedBy (d : Device) (user : String) : Bool := d.userId == user

end Device

end WaitingRoom
