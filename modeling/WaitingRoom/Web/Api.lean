import WaitingRoom.Desk.Operations
import WaitingRoom.Text.Utf8
import WaitingRoom.Web.MediaType
import WaitingRoom.Web.Query
import WaitingRoom.Web.Resource
import WaitingRoom.Web.Upgrade

/-!
# The interface for web clients

Which operation of the desk each request asks for, and how its result is answered. The
caller is made out first, then the device a path names, then what the query or the body
says; whatever fails first is answered, and nothing is done before all is understood.
-/

namespace WaitingRoom.Web

open Procedure (done)

/-- How many bytes a body may have: two mebibytes. -/
def bodyLimit : Nat := 2097152

/-- Serves a request whose caller is known. -/
def withCaller (check : Validator) (r : Request) (serve : Token → Procedure Response) :
    Procedure Response :=
  match r.credential with
  | .error why => done (.unauthorized why)
  | .ok credential =>
    match check credential with
    | .error why => done (.unauthorized why)
    | .ok token => serve token

/-- Serves a request for the device that a segment of its path names. -/
def withDevice (segment : String) (serve : String → Procedure Response) : Procedure Response :=
  match Text.decodeSegment? segment with
  | none => done (.bad "Invalid URL: *")
  | some id => serve id

/-- What the body of a request says, or why it cannot be told. -/
def readBody {α : Type} (read : Json.Value → Json.Decoded α) (r : Request) : Except String α :=
  let isJson := match (r.header? "content-type").bind Request.visibleText? with
    | some mediaType => isJsonType mediaType
    | none => false
  if !isJson then .error "Expected request with `Content-Type: application/json`"
  else if bodyLimit < r.body.length then
    .error "Failed to buffer the request body: length limit exceeded"
  else
    match Json.decodeSource read (Text.decodeUtf8 r.body) with
    | .ok a => .ok a
    | .error .malformed => .error "Failed to parse the request body as JSON: *"
    | .error .mismatched =>
      .error "Failed to deserialize the JSON body into the target type: *"

/-- Serves a request whose body is understood. -/
def withBody {α : Type} (read : Json.Value → Json.Decoded α) (r : Request)
    (serve : α → Procedure Response) : Procedure Response :=
  match readBody read r with
  | .error why => done (.bad why)
  | .ok a => serve a

/-- Answers with the result of an operation. -/
def reply {α : Type} (write : α → Response) (p : Procedure (Except Failure α)) :
    Procedure Response :=
  p.bind fun
    | .ok a => done (write a)
    | .error f => done (.failed f)

/-- Answers that an operation succeeded. -/
def confirm (p : Procedure (Except Failure Unit)) : Procedure Response := reply (fun _ => .ok) p

/-- Answers with a device. -/
def replyDevice (p : Procedure (Except Failure Device)) : Procedure Response :=
  reply (fun d => .value d.toJson) p

/-- Answers with the status of an operation alone. -/
def replyStatus {α : Type} (p : Procedure (Except Failure α)) : Procedure Response :=
  p.bind fun
    | .ok _ => done .ok
    | .error f => done { status := f.webStatus }

/-- Local ids in a body. -/
def localIds : Json.Value → Json.Decoded (List String) := Json.Value.asList Json.Value.asText

/-- Devices in a body. -/
def devices : Json.Value → Json.Decoded (List Device) := Json.Value.asList Device.ofJson

/-- Lists devices as the query demands. -/
def serveList (r : Request) (token : Token) : Procedure Response :=
  match listOptions? r.query with
  | none => done (.bad "Failed to deserialize query string: *")
  | some o => reply (fun l => .value l.toJson) (Desk.list token o)

/-- Writes the device of the body under the local id of the path, which must agree. -/
def servePut (token : Token) (id : String) (d : Device) : Procedure Response :=
  if d.localId != id then done (.bad "expect path local_id == body.local_id")
  else replyDevice (Desk.set token d)

/-- Serves a request for a resource that understands its method. -/
def serve (check : Validator) (r : Request) (resource : Resource) : Procedure Response :=
  let caller := withCaller check r
  let batch (operation : Token → List String → Procedure (Except Failure Unit)) :=
    caller fun token => withBody localIds r fun ids => confirm (operation token ids)
  let single (segment : String) (operation : Token → String → Procedure (Except Failure Unit)) :=
    caller fun token => withDevice segment fun id => confirm (operation token id)
  match resource with
  | .health => done (.report 200 "OK")
  | .events => done (upgradeRefusal r)
  | .devices =>
    if r.method == "PUT" then
      caller fun token => withBody devices r fun ds =>
        reply (fun ds => .value (.list (ds.map Device.toJson))) (Desk.setMany token ds)
    else if r.method == "DELETE" then batch Desk.deleteMany
    else caller (serveList r)
  | .device segment =>
    if r.method == "PUT" then
      caller fun token => withDevice segment fun id =>
        withBody Device.ofJson r (servePut token id)
    else if r.method == "DELETE" then single segment Desk.delete
    else if r.method == "HEAD" then
      caller fun token => withDevice segment fun id => replyStatus (Desk.read token id)
    else caller fun token => withDevice segment fun id => replyDevice (Desk.read token id)
  | .usedDevices => batch Desk.useMany
  | .usedDevice segment => single segment Desk.use
  | .hiddenDevices => batch Desk.hideMany
  | .hiddenDevice segment => single segment Desk.hide
  | .shownDevices => batch Desk.showMany
  | .shownDevice segment => single segment Desk.show

/-- The answer to a request, and what is done for it. Questions for what may be sent are
answered for every path; a method that a resource does not understand is refused. -/
def answer (check : Validator) (r : Request) : Procedure Response :=
  match Resource.ofPath? r.path with
  | none =>
    done (if r.method == "OPTIONS" then { status := 200, preflight := true } else .unknown)
  | some resource =>
    if r.method == "OPTIONS" then
      done { status := 200, preflight := true, allow := resource.methods }
    else if resource.methods.contains r.method then
      (serve check r resource).bind fun response =>
        done { response with bodiless := r.method == "HEAD" }
    else done { status := 405, allow := resource.methods }

end WaitingRoom.Web
