import WaitingRoom.Desk.World
import WaitingRoom.Hall.Settle
import WaitingRoom.Web.Api

/-!
# The service

The desk and the hall together: requests are served by procedures, the events they give
notice of go out to the sessions, and time passes for both. A request that meets a call
that never comes back is given up after ten seconds; what it did before that stays done.
-/

namespace WaitingRoom

open Time (Instant)

/-- Desk and hall. Both have the same clock, and the same time passes in both. Connections are
counted with 64 bits. -/
structure Service where
  check : Validator
  world : World := {}
  hall : Hall
  connections : UInt64 := 0

namespace Service

/-- How long a request may take, in milliseconds. -/
def requestLimit : Nat := 10000

/-- The name of a connection from an address before which `n` others were counted. -/
def connectionId (address : String) (n : UInt64) : String :=
  "ws-" ++ address ++ "-" ++ Text.ofNat n.toNat

/-- Names a new connection from an address and counts it. After the last number that there is
the count starts over. -/
def nextConnectionId (s : Service) (address : String) : String × Service :=
  (connectionId address s.connections, { s with connections := s.connections + 1 })

/-- Lets time pass in one leap. -/
def leap (s : Service) (millis : Nat) : Service :=
  { s with world := s.world.pass millis, hall := s.hall.act [.pass millis] }

/-- The times at which something falls due: pings and removals. -/
def dueTimes (s : Service) : List Nat :=
  (s.hall.sessions.filter fun session => session.pinging == .resting).map (·.pingAt) ++
    s.world.removals.map (·.due)

/-- The first time after now, and up to `limit`, at which something falls due. -/
def nextDue (s : Service) (limit : Nat) : Nat :=
  (s.dueTimes.filter fun t => s.hall.elapsed < t && t < limit).foldl min limit

/-- Lets time pass up to `limit`, from one due time to the next. -/
def passUntil (s : Service) (limit : Nat) : (steps : Nat) → Service
  | 0 => s
  | steps + 1 =>
    if s.hall.elapsed < limit then
      (s.leap (s.nextDue limit - s.hall.elapsed)).passUntil limit steps
    else s

/-- Lets time pass. -/
def pass (s : Service) (millis : Nat) : Service :=
  s.passUntil (s.hall.elapsed + millis) (millis + 1)

/-- Moves the clock, unless it would leave the calendar. -/
def moveClock (s : Service) (millis : Int) : Option Service :=
  (s.world.moveClock millis).map fun world =>
    { s with world, hall := s.hall.act [.setClock world.clock] }

/-- Sends the events that notice was given of out to the sessions. -/
def publish (s : Service) : Service :=
  let moves := s.world.notices.map fun n => Move.trigger n.user n.event
  { s with world := { s.world with notices := [] }, hall := s.hall.act moves }

/-- Serves a request. -/
def request (s : Service) (r : Web.Request) : Web.Response × Service :=
  match s.world.run (Web.answer s.check r) with
  | (.finished response, world) => (response, ({ s with world }.publish).leap 0)
  | (.hung, world) => (.timedOut, ({ s with world }.publish).pass requestLimit)

/-- Opens a session for a new connection from an address. -/
def connect (s : Service) (address : String) : Service :=
  let (connection, s) := s.nextConnectionId address
  { s with hall := s.hall.act [.connect connection] }

end Service

end WaitingRoom
