import WaitingRoom.Json.Decode
import WaitingRoom.Json.Render

/-!
# Events and frames

What happens to a record, and the frames in which a connection and the waiting room
talk about it: a type and a payload.
-/

namespace WaitingRoom

open Json (Value Decoded Member)

/-- What happened to a record: it was written, deleted or adopted. -/
inductive Change
  | set
  | delete
  | use
  deriving DecidableEq, Repr

/-- A change to the record with this local id. -/
structure Event where
  change : Change
  localId : String
  deriving DecidableEq, Repr

/-- The types of frames. A type of any other name is `unknown`. -/
inductive FrameKind
  | auth
  | authRequest
  | authOk
  | error
  | updateSet
  | updateDelete
  | updateUse
  | unknown
  deriving DecidableEq, Repr

namespace FrameKind

/-- The name of a type. -/
def name : FrameKind → String
  | auth => "auth"
  | authRequest => "auth_request"
  | authOk => "auth_ok"
  | error => "error"
  | updateSet => "update_set"
  | updateDelete => "update_delete"
  | updateUse => "update_use"
  | unknown => "unknown"

/-- The types that have a name of their own. -/
def listed : List FrameKind :=
  [auth, authRequest, authOk, error, updateSet, updateDelete, updateUse]

/-- The type of a name. -/
def ofName (name : String) : FrameKind :=
  (listed.find? fun kind => kind.name == name).getD unknown

end FrameKind

/-- A frame: its type and its payload. -/
structure Frame where
  kind : FrameKind
  payload : String := ""
  deriving DecidableEq, Repr

namespace Frame

/-- The fields of a frame in their order; the payload may be absent. -/
def fields : List (Member Frame) :=
  [.of "type" (Value.asChoice fun name => .ok (FrameKind.ofName name))
     (fun f kind => { f with kind }) .refused,
   .of "payload" Value.asText fun f payload => { f with payload }]

/-- Reads a frame. -/
def ofJson : Value → Decoded Frame := Value.asRecord ⟨.unknown, ""⟩ fields

/-- A frame as a record; an empty payload is left out. -/
def toJson (f : Frame) : Value :=
  .ofMembers (("type", .ofString f.kind.name) ::
    if f.payload.isEmpty then [] else [("payload", .ofString f.payload)])

/-- Reads a text that is a frame. -/
def parse (s : String) : Decoded Frame := Json.decodeText ofJson s

/-- The text of a frame. -/
def render (f : Frame) : String := f.toJson.render

/-- The frame by which a connection presents a credential. -/
def auth (credential : String) : Frame := ⟨.auth, credential⟩

/-- The answer to a credential that is accepted. -/
def authOk : Frame := ⟨.authOk, ""⟩

/-- The request for a new credential. -/
def authRequest : Frame := ⟨.authRequest, ""⟩

/-- The report of a problem. -/
def error (message : String) : Frame := ⟨.error, message⟩

/-- The frame that tells of an event. -/
def ofEvent (e : Event) : Frame :=
  match e.change with
  | .set => ⟨.updateSet, e.localId⟩
  | .delete => ⟨.updateDelete, e.localId⟩
  | .use => ⟨.updateUse, e.localId⟩

end Frame

end WaitingRoom
