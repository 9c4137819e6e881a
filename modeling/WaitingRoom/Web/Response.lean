import WaitingRoom.Credential
import WaitingRoom.Failure
import WaitingRoom.Json.Render

/-!
# Responses

What is answered to a request: a status, and a body that is empty, a text or JSON. Pages
of any origin may use the answers, which the headers of every response say.
-/

namespace WaitingRoom.Web

/-- The body of a response. -/
inductive Content
  | empty
  | text (content : String)
  | json (content : String)
  deriving DecidableEq, Repr

/-- A response. `allow` lists the methods a resource understands, where a request used
another; `bodiless` drops the body and keeps its headers; `preflight` answers a browser
that asks what it may send. -/
structure Response where
  status : Nat
  content : Content := .empty
  allow : List String := []
  bodiless : Bool := false
  preflight : Bool := false
  deriving DecidableEq, Repr

namespace Response

/-- A report in words. -/
def report (status : Nat) (message : String) : Response := { status, content := .text message }

/-- Success with nothing to say. -/
def ok : Response := { status := 200 }

/-- Success with a value. -/
def value (v : Json.Value) : Response := { status := 200, content := .json v.render }

/-- A failure of the operation asked for. -/
def failed (f : Failure) : Response := report f.webStatus f.message

/-- A credential that is not accepted. -/
def unauthorized (f : AuthFailure) : Response := report 401 f.message

/-- A request that makes no sense. -/
def bad (message : String) : Response := report 400 message

/-- There is no such resource. -/
def unknown : Response := { status := 404 }

/-- The request took longer than it may. -/
def timedOut : Response := { status := 408 }

/-- The media type of a body. -/
def mediaType? : Content → Option String
  | .empty => none
  | .text _ => some "text/plain; charset=utf-8"
  | .json _ => some "application/json"

/-- The text of the body. -/
def body (r : Response) : String :=
  if r.bodiless then ""
  else match r.content with
    | .empty => ""
    | .text s | .json s => s

/-- The header fields of a response. -/
def headers (r : Response) : List (String × String) :=
  (match mediaType? r.content with
    | some mediaType => [("content-type", mediaType)]
    | none => []) ++
  (if r.allow.isEmpty then [] else [("allow", String.intercalate "," r.allow)]) ++
  [("vary", "origin, access-control-request-method, access-control-request-headers"),
   ("access-control-allow-origin", "*")] ++
  (if r.preflight then
    [("access-control-allow-methods", "*"), ("access-control-allow-headers", "*")] else [])

end Response

end WaitingRoom.Web
