import WaitingRoom.Credential
import WaitingRoom.Event
import WaitingRoom.Listing

/-!
# Procedures

What an operation of the desk does, as a tree of the calls it makes: at each call it
waits for the answer and goes on as that answer demands. A procedure says nothing about
how calls are answered, so the same tree can be run at one go, be cut off at a call that
never answers, or take turns with others call by call.
-/

namespace WaitingRoom

open Time (Instant)

/-- A computation that calls the store, the device manager and the clock, has removals
done later, and gives notice of events. -/
inductive Procedure (α : Type) where
  | done (result : α)
  | now (next : Instant → Procedure α)
  | read (id : String) (next : Except Failure Device → Procedure α)
  | write (device : Device) (next : Except Failure Unit → Procedure α)
  | remove (id : String) (next : Except Failure Unit → Procedure α)
  | list (user : String) (options : ListOptions)
      (next : Except Failure (List Device × Int) → Procedure α)
  | adopt (token : Token) (device : Device) (next : Except Failure Unit → Procedure α)
  | removeLater (id : String) (next : Procedure α)
  | notify (user : String) (event : Event) (next : Procedure α)

namespace Procedure

variable {α β : Type}

/-- Runs a procedure and then the one its result demands. -/
def bind (p : Procedure α) (f : α → Procedure β) : Procedure β :=
  match p with
  | done a => f a
  | now next => now fun t => (next t).bind f
  | read id next => read id fun r => (next r).bind f
  | write d next => write d fun r => (next r).bind f
  | remove id next => remove id fun r => (next r).bind f
  | list user o next => list user o fun r => (next r).bind f
  | adopt t d next => adopt t d fun r => (next r).bind f
  | removeLater id next => removeLater id (next.bind f)
  | notify user e next => notify user e (next.bind f)

instance : Monad Procedure where
  pure := done
  bind := bind

/-- Goes on with the value of a success; a failure is the result. -/
def andThen (p : Procedure (Except Failure α)) (f : α → Procedure (Except Failure β)) :
    Procedure (Except Failure β) :=
  p.bind fun
    | .ok a => f a
    | .error failure => done (.error failure)

/-- Runs a procedure for each of the items in order, up to the first failure. -/
def each (p : α → Procedure (Except Failure β)) : List α → Procedure (Except Failure (List β))
  | [] => done (.ok [])
  | a :: rest => (p a).andThen fun b => (each p rest).andThen fun bs => done (.ok (b :: bs))

end Procedure

end WaitingRoom
