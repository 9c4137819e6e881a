import WaitingRoom.Text.Percent

/-!
# Resources

What the paths of requests name, and the methods each resource understands. A device is
named by one segment of a path, which is not empty and is kept as it was sent.
-/

namespace WaitingRoom.Web

/-- A resource. -/
inductive Resource
  | health
  | events
  | devices
  | device (segment : String)
  | usedDevices
  | usedDevice (segment : String)
  | hiddenDevices
  | hiddenDevice (segment : String)
  | shownDevices
  | shownDevice (segment : String)
  deriving DecidableEq, Repr

namespace Resource

/-- The resource that the segments of a path name. -/
def ofSegments? : List String → Option Resource
  | ["health"] => some health
  | ["events"] => some events
  | ["devices"] => some devices
  | ["used", "devices"] => some usedDevices
  | ["hidden", "devices"] => some hiddenDevices
  | ["shown", "devices"] => some shownDevices
  | ["devices", segment] => if segment.isEmpty then none else some (device segment)
  | ["used", "devices", segment] => if segment.isEmpty then none else some (usedDevice segment)
  | ["hidden", "devices", segment] => if segment.isEmpty then none else some (hiddenDevice segment)
  | ["shown", "devices", segment] => if segment.isEmpty then none else some (shownDevice segment)
  | _ => none

/-- The resource that a path names. -/
def ofPath? (path : String) : Option Resource :=
  match path.toList with
  | '/' :: rest => ofSegments? ((Text.splitAt '/' rest).map String.ofList)
  | _ => none

/-- The methods a resource understands. -/
def methods : Resource → List String
  | health | events => ["GET", "HEAD"]
  | devices | device _ => ["GET", "HEAD", "PUT", "DELETE"]
  | usedDevices | usedDevice _ => ["POST"]
  | hiddenDevices | hiddenDevice _ | shownDevices | shownDevice _ => ["PUT"]

end Resource

end WaitingRoom.Web
