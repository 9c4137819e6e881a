import WaitingRoom.Credential
import WaitingRoom.Text.Utf8

/-!
# Requests

A request as it arrives: method, path and query as they were sent, headers in order, and
the bytes of the body.
-/

namespace WaitingRoom.Web

/-- A request. -/
structure Request where
  method : String
  path : String
  query : String := ""
  headers : List (String × List UInt8) := []
  body : List UInt8 := []
  deriving DecidableEq, Repr

namespace Request

/-- Whether two names of headers are the same. -/
def sameName (a b : String) : Bool := Text.sameIgnoringAsciiCase a.toList b.toList

/-- The value of the first header with a name. -/
def header? (r : Request) (name : String) : Option (List UInt8) :=
  (r.headers.find? fun (key, _) => sameName key name).map (·.2)

/-- The text of a header's value, if all of it is visible. -/
def visibleText? (value : List UInt8) : Option String :=
  if value.all Text.isVisibleByte then
    some (String.ofList (value.map fun b => Char.ofNat b.toNat))
  else none

/-- The credential of a request. -/
def credential (r : Request) : Except AuthFailure String :=
  match r.header? "authorization" with
  | none => .error .missing
  | some value =>
    match visibleText? value with
    | some text => .ok text
    | none => .error (.invalid .nonAsciiHeader)

/-- A request for a target, which is a path with or without a query behind a question
mark; what follows a number sign is not part of it. -/
def ofTarget (method target : String) (headers : List (String × List UInt8))
    (body : List UInt8) : Request :=
  let cs := target.toList.takeWhile (· != '#')
  { method, headers, body
    path := String.ofList (cs.takeWhile (· != '?'))
    query := String.ofList ((cs.dropWhile (· != '?')).drop 1) }

end Request

end WaitingRoom.Web
