import WaitingRoom.Text.Lowercase
import WaitingRoom.Web.Request
import WaitingRoom.Web.Response

/-!
# Upgrades

What a request for a stream of events is told when the connection it came on cannot be
turned into one.
-/

namespace WaitingRoom.Web

namespace Request

/-- The value of a header in lower case, byte for byte. -/
def loweredHeader (r : Request) (name : String) : Option (List Char) :=
  (r.header? name).map fun value => value.map fun b => (Char.ofNat b.toNat).toLower

/-- Whether a header has exactly this value, case aside. -/
def headerIs (r : Request) (name value : String) : Bool :=
  r.loweredHeader name == some value.toList

/-- Whether the value of a header, which must be a text, has a word in it, case aside. -/
def headerHas (r : Request) (name : String) (word : List Char) : Bool :=
  match r.header? name with
  | none => false
  | some value =>
    match Text.strictText? value with
    | none => false
    | some s => Text.occursIn word (s.toList.map Char.toLower)

end Request

/-- Why a request cannot be upgraded; the last reason is that its connection cannot. -/
def upgradeRefusal (r : Request) : Response :=
  if r.method != "GET" then .report 405 "Request method must be `GET`"
  else if !r.headerHas "connection" "upgrade".toList then
    .bad "Connection header did not include 'upgrade'"
  else if !r.headerIs "upgrade" "websocket" then
    .bad "`Upgrade` header did not include 'websocket'"
  else if (r.header? "sec-websocket-key").isNone then
    .bad "`Sec-WebSocket-Key` header missing"
  else if !r.headerIs "sec-websocket-version" "13" then
    .bad "`Sec-WebSocket-Version` header did not include '13'"
  else .report 426 "WebSocket request couldn't be upgraded since no upgrade state was present"

end WaitingRoom.Web
