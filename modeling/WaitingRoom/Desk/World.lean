import WaitingRoom.Desk.Procedure
import WaitingRoom.Store.Service

/-!
# The world of the desk

What answers the calls of procedures: a store in memory whose calls may fail or hang, a
device manager that may refuse, a clock, and removals that wait for their time. Running
a procedure to its end, or to a call that never answers, changes the world and leaves a
record of the notices given and the devices adopted.
-/

namespace WaitingRoom

open Time (Instant)

/-- A removal that waits for its time, in milliseconds of the service's own time. -/
structure Removal where
  localId : String
  due : Nat
  deriving DecidableEq, Repr

/-- A device that the device manager took over, and on whose behalf. -/
structure Adoption where
  token : Token
  device : Device
  deriving DecidableEq

/-- An event for the connections of a user. -/
structure Notice where
  user : String
  event : Event
  deriving DecidableEq, Repr

/-- How the device manager answers an adoption. -/
inductive ManagerReply
  | accepted
  | declined (failure : Failure)
  | hanging
  deriving DecidableEq, Repr

/-- How an adoption is answered when the device manager cannot be reached. -/
def ManagerReply.outOfReach : ManagerReply :=
  .declined (.internal "device manager request failed: *")

/-- Everything procedures act on. The clock of records and tokens and the time that
removals wait for move independently. `wait` is how long a removal after an adoption
waits; without it there is none. -/
structure World where
  service : StoreService := {}
  manager : Nat → ManagerReply := fun _ => .accepted
  asked : Nat := 0
  clock : Instant := Instant.epoch
  wait : Option Nat := none
  elapsed : Nat := 0
  removals : List Removal := []
  adopted : List Adoption := []
  notices : List Notice := []

/-- How a procedure ends: with a result, or at a call that never answers. -/
inductive Ending (α : Type) where
  | finished (result : α)
  | hung
  deriving DecidableEq, Repr

namespace World

variable {α : Type}

/-- The records kept. -/
def store (w : World) : Store := w.service.store

/-- Reads a record. -/
def readCall (w : World) (id : String) : Option (Except Failure Device) × World :=
  let (r, service) := w.service.read id
  (r, { w with service })

/-- Writes a record. -/
def writeCall (w : World) (d : Device) : Option (Except Failure Unit) × World :=
  let (r, service) := w.service.write d
  (r, { w with service })

/-- Deletes a record. -/
def removeCall (w : World) (id : String) : Option (Except Failure Unit) × World :=
  let (r, service) := w.service.remove id
  (r, { w with service })

/-- Lists the records of a user. -/
def listCall (w : World) (user : String) (o : ListOptions) :
    Option (Except Failure (List Device × Int)) × World :=
  let (r, service) := w.service.list user o
  (r, { w with service })

/-- Asks the device manager to adopt a device. -/
def adoptCall (w : World) (token : Token) (d : Device) : Option (Except Failure Unit) × World :=
  let asked := { w with asked := w.asked + 1 }
  match w.manager w.asked with
  | .accepted => (some (.ok ()), { asked with adopted := w.adopted ++ [⟨token, d⟩] })
  | .declined f => (some (.error f), asked)
  | .hanging => (none, asked)

/-- Has a record removed later, if a wait is configured. -/
def removeLater (w : World) (id : String) : World :=
  match w.wait with
  | none => w
  | some wait => { w with removals := w.removals ++ [⟨id, w.elapsed + wait⟩] }

/-- Gives notice of an event. -/
def notify (w : World) (user : String) (e : Event) : World :=
  { w with notices := w.notices ++ [⟨user, e⟩] }

/-- Runs a procedure until it ends or a call hangs. -/
def run : Procedure α → World → Ending α × World
  | .done a, w => (.finished a, w)
  | .now next, w => run (next w.clock) w
  | .read id next, w =>
    match w.readCall id with
    | (some r, w) => run (next r) w
    | (none, w) => (.hung, w)
  | .write d next, w =>
    match w.writeCall d with
    | (some r, w) => run (next r) w
    | (none, w) => (.hung, w)
  | .remove id next, w =>
    match w.removeCall id with
    | (some r, w) => run (next r) w
    | (none, w) => (.hung, w)
  | .list user o next, w =>
    match w.listCall user o with
    | (some r, w) => run (next r) w
    | (none, w) => (.hung, w)
  | .adopt t d next, w =>
    match w.adoptCall t d with
    | (some r, w) => run (next r) w
    | (none, w) => (.hung, w)
  | .removeLater id next, w => run next (w.removeLater id)
  | .notify user e next, w => run next (w.notify user e)

/-- Carries out a removal; that it fails or hangs is nobody's concern. -/
def carryOut (w : World) (r : Removal) : World := (w.removeCall r.localId).2

/-- Carries out the removals whose time has come, the earliest first. -/
def runRemovals (w : World) : World :=
  let due := (w.removals.filter fun r => r.due ≤ w.elapsed).mergeSort fun a b => a.due ≤ b.due
  due.foldl carryOut { w with removals := w.removals.filter fun r => !(r.due ≤ w.elapsed) }

/-- Lets the service's time pass. -/
def pass (w : World) (millis : Nat) : World :=
  runRemovals { w with elapsed := w.elapsed + millis }

/-- Moves the clock, unless it would leave the calendar. -/
def moveClock (w : World) (millis : Int) : Option World :=
  (w.clock.shiftMillis? millis).map fun clock => { w with clock }

/-- Forgets what was noted of adoptions and events. -/
def forget (w : World) : World := { w with adopted := [], notices := [] }

end World

end WaitingRoom
