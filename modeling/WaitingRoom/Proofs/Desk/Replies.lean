import WaitingRoom.Proofs.Desk.Occasions

/-!
# What users are told

The reply to an operation, the replies along a row of occasions, and the calls that are
made on the way. Two rows of occasions that give the same replies and make the same calls
cannot be told apart by those who asked, nor by the store and the device manager.
-/

namespace WaitingRoom

/-- What a user is told whose operation succeeded. -/
inductive Reply
  | listing (page : DeviceList)
  | record (device : Device)
  | records (devices : List Device)
  | nothing

/-- The reply that an operation's result makes. -/
def Operation.reply : (op : Operation) → op.Result → Reply
  | list _, page => .listing page
  | read _, d | set _, d => .record d
  | setMany _, ds => .records ds
  | use _, _ | delete _, _ | hide _, _ | «show» _, _ => .nothing
  | useMany _, _ | deleteMany _, _ | hideMany _, _ | showMany _, _ => .nothing

/-- What a user is told when a procedure has ended: the reply, why there is none, or nothing
ever if a call hangs. -/
def Ending.told {α : Type} (reply : α → Reply) :
    Ending (Except Failure α) → Ending (Except Failure Reply)
  | .finished r => .finished (r.map reply)
  | .hung => .hung

namespace World

/-- What a user is told about an operation. -/
def replyTo (w : World) (token : Token) (op : Operation) : Ending (Except Failure Reply) :=
  (w.run (op.procedure token)).1.told op.reply

/-- What users are told in the course of some occasions. -/
def replies (w : World) : List Occasion → List (Ending (Except Failure Reply))
  | [] => []
  | .request token op :: rest => w.replyTo token op :: (w.perform token op).replies rest
  | .setClock now :: rest => (w.meet (.setClock now)).replies rest
  | .pass millis :: rest => (w.meet (.pass millis)).replies rest

/-- The calls that operations make in the course of some occasions. -/
def callsAlong (w : World) : List Occasion → List Call
  | [] => []
  | .request token op :: rest =>
    (w.callsOf token op).map Moment.call ++ (w.perform token op).callsAlong rest
  | .setClock now :: rest => (w.meet (.setClock now)).callsAlong rest
  | .pass millis :: rest => (w.meet (.pass millis)).callsAlong rest

/-- A row of occasions from its first on. -/
@[simp] theorem meetAll_cons (w : World) (o : Occasion) (occasions : List Occasion) :
    w.meetAll (o :: occasions) = (w.meet o).meetAll occasions := rfl

end World

end WaitingRoom
