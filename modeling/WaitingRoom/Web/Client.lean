import WaitingRoom.Service

/-!
# Clients of event streams

What a client sends over its connection, what the session behind it makes of that, and
what the client receives.
-/

namespace WaitingRoom.Web

/-- What a client does: it sends a text, bytes, or a ping with a payload of some bytes, it
closes the connection, or it hangs up. -/
inductive ClientMessage
  | text (content : String)
  | binary
  | ping (size : Nat)
  | close
  | hangUp
  deriving DecidableEq, Repr

/-- What a client receives: a text, a ping without payload, the payload of its own ping,
the closing of the connection, and its end. -/
inductive Receipt
  | text (content : String)
  | ping
  | pong (size : Nat)
  | close
  | ended
  deriving DecidableEq, Repr

namespace ClientMessage

/-- The signal a session gets. -/
def signal : ClientMessage → Signal
  | text content => .text content
  | binary | ping _ => .other
  | close => .close
  | hangUp => .failure

end ClientMessage

/-- What the client of a session receives of what was written. -/
def receipts (session : Nat) (outputs : List Output) : List Receipt :=
  outputs.flatMap fun
    | .frame i f _ => if i = session then [.text f.render] else []
    | .ping i => if i = session then [.ping] else []
    | .goodbye i => if i = session then [.close, .ended] else []

/-- A client sends something to its session: what it receives at once, and the service
after it. -/
def send (s : Service) (session : Nat) (message : ClientMessage) : List Receipt × Service :=
  if s.hall.isOver session then ([], s)
  else
    let pong := match message with
      | .ping size => [Receipt.pong size]
      | _ => []
    (pong, { s with hall := s.hall.act (Session.readMoves session [message.signal]) })

end WaitingRoom.Web
