import WaitingRoom.Store

/-!
# Stores as services

A store is reached by calls, and a call may be answered, fail without effect, or never
come back. How each call goes is laid down beforehand, for each kind of call by the
number of calls of that kind made before.
-/

namespace WaitingRoom

/-- The calls a store answers. -/
inductive StoreCall
  | list
  | read
  | write
  | remove
  | fetch
  deriving DecidableEq, Repr

/-- How a call goes: it is answered, it fails, or it never comes back. -/
inductive Fate
  | served
  | failed
  | hanging
  deriving DecidableEq, Repr

/-- How many calls of each kind have been made. -/
structure CallCounts where
  lists : Nat := 0
  reads : Nat := 0
  writes : Nat := 0
  removals : Nat := 0
  fetches : Nat := 0
  deriving DecidableEq, Repr

namespace CallCounts

/-- The number of calls of a kind. -/
def of (n : CallCounts) : StoreCall → Nat
  | .list => n.lists
  | .read => n.reads
  | .write => n.writes
  | .remove => n.removals
  | .fetch => n.fetches

/-- One more call of a kind. -/
def bump (n : CallCounts) : StoreCall → CallCounts
  | .list => { n with lists := n.lists + 1 }
  | .read => { n with reads := n.reads + 1 }
  | .write => { n with writes := n.writes + 1 }
  | .remove => { n with removals := n.removals + 1 }
  | .fetch => { n with fetches := n.fetches + 1 }

theorem of_bump (n : CallCounts) (call other : StoreCall) :
    (n.bump call).of other = if other = call then n.of other + 1 else n.of other := by
  cases call <;> cases other <;> rfl

end CallCounts

/-- The fate of every call: for each kind, of the first, the second, and so on. -/
abbrev Forecast := StoreCall → Nat → Fate

/-- The forecast in which every call is answered. -/
def Forecast.fair : Forecast := fun _ _ => .served

/-- A store, the fate of the calls made to it, and how many have been made. -/
structure StoreService where
  store : Store := Store.empty
  forecast : Forecast := Forecast.fair
  made : CallCounts := {}

/-- How a store fails. -/
def diskFull : Failure := .internal "disk full"

namespace StoreService

variable {α : Type}

/-- The fate of the next call of a kind. -/
def next (s : StoreService) (call : StoreCall) : Fate := s.forecast call (s.made.of call)

/-- From now on `after` calls of a kind are answered and all later ones meet the fate. -/
def turn (s : StoreService) (call : StoreCall) (after : Nat) (fate : Fate) : StoreService :=
  let first := s.made.of call + after
  { s with
    forecast := fun c n =>
      if c = call then (if first ≤ n then fate else .served) else s.forecast c n }

/-- What a call is answered, and the service after it; nothing if the call hangs. -/
def answer (s : StoreService) (call : StoreCall) (served : Except Failure α × Store) :
    Option (Except Failure α) × StoreService :=
  let counted := { s with made := s.made.bump call }
  match s.next call with
  | .served => (some served.1, { counted with store := served.2 })
  | .failed => (some (.error diskFull), counted)
  | .hanging => (none, counted)

/-- Reads a record. -/
def read (s : StoreService) (id : String) : Option (Except Failure Device) × StoreService :=
  s.answer .read (s.store.read id, s.store)

/-- Writes a record. -/
def write (s : StoreService) (d : Device) : Option (Except Failure Unit) × StoreService :=
  s.answer .write (.ok (), s.store.insert d)

/-- Deletes a record. -/
def remove (s : StoreService) (id : String) : Option (Except Failure Unit) × StoreService :=
  s.answer .remove (.ok (), s.store.erase id)

/-- Lists the records of a user. -/
def list (s : StoreService) (user : String) (o : ListOptions) :
    Option (Except Failure (List Device × Int)) × StoreService :=
  s.answer .list (s.store.list user o, s.store)

/-- Fetches a page of all records. -/
def fetch (s : StoreService) (offset limit : Int) :
    Option (Except Failure (List Device)) × StoreService :=
  s.answer .fetch (.ok (s.store.exportPage offset limit), s.store)

/-- The answer a caller that waits no longer than it may makes do with. -/
def orTimeout (r : Option (Except Failure α)) : Except Failure α :=
  r.getD (.error .storageTimeout)

end StoreService

end WaitingRoom
