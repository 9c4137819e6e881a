import WaitingRoom.Desk.Operations
import WaitingRoom.Proofs.Desk.Calls

/-!
# What the desk meets with

Users ask for operations, the clock is set, and time passes so that removals fall due.
A row of such occasions is a run of the desk: each operation runs to its end, or to a
call that hangs, before the next occasion.
-/

namespace WaitingRoom

/-- What a user can ask of the desk. -/
inductive Operation
  | list (options : ListOptions)
  | read (id : String)
  | set (payload : Device)
  | use (id : String)
  | delete (id : String)
  | hide (id : String)
  | «show» (id : String)
  | setMany (payloads : List Device)
  | useMany (ids : List String)
  | deleteMany (ids : List String)
  | hideMany (ids : List String)
  | showMany (ids : List String)

namespace Operation

/-- What an operation that succeeds answers. -/
def Result : Operation → Type
  | list _ => DeviceList
  | read _ | set _ => Device
  | setMany _ => List Device
  | _ => Unit

/-- What the desk does for an operation, on behalf of the bearer of a token. -/
def procedure (token : Token) : (op : Operation) → Procedure (Except Failure op.Result)
  | list o => Desk.list token o
  | read id => Desk.read token id
  | set payload => Desk.set token payload
  | use id => Desk.use token id
  | delete id => Desk.delete token id
  | hide id => Desk.hide token id
  | «show» id => Desk.show token id
  | setMany payloads => Desk.setMany token payloads
  | useMany ids => Desk.useMany token ids
  | deleteMany ids => Desk.deleteMany token ids
  | hideMany ids => Desk.hideMany token ids
  | showMany ids => Desk.showMany token ids

/-- The local ids of the records an operation is to have adopted. -/
def adopts : Operation → List String
  | use id => [id]
  | useMany ids => ids
  | _ => []

/-- The local ids of the records an operation is to delete, adopted or not. -/
def discards : Operation → List String
  | delete id => [id]
  | deleteMany ids => ids
  | op => op.adopts

end Operation

/-- What happens to the desk: a user asks for an operation, the clock is set, or time
passes. -/
inductive Occasion
  | request (token : Token) (operation : Operation)
  | setClock (now : Time.Instant)
  | pass (millis : Nat)

namespace World

/-- The calls an operation makes. -/
def callsOf (w : World) (token : Token) (op : Operation) : List Moment :=
  w.calls (op.procedure token)

/-- The world after an operation. -/
def perform (w : World) (token : Token) (op : Operation) : World :=
  (w.run (op.procedure token)).2

/-- The world after an occasion. -/
def meet (w : World) : Occasion → World
  | .request token op => w.perform token op
  | .setClock now => { w with clock := now }
  | .pass millis => w.pass millis

/-- The world after a row of occasions. -/
def meetAll (w : World) (occasions : List Occasion) : World := occasions.foldl meet w

/-- A row of occasions up to its last. -/
@[simp] theorem meetAll_append_singleton (w : World) (occasions : List Occasion) (o : Occasion) :
    w.meetAll (occasions ++ [o]) = (w.meetAll occasions).meet o := by
  simp [meetAll]

end World

end WaitingRoom
