import WaitingRoom.Credential
import WaitingRoom.Subscriptions

/-!
# Sessions

A session looks after one connection. It reads what the connection sends, one frame at a
time; it pings the connection at intervals; and events are delivered to it. These go on
side by side, so a session is described by where each of them stands, between one step
that others can see and the next.
-/

namespace WaitingRoom

/-- What arrives from a connection: a text, something that is of no interest, a request
to close, a failure to read, or its end. -/
inductive Signal
  | text (content : String)
  | other
  | close
  | failure
  | ended
  deriving DecidableEq, Repr

/-- Where the reading of a session stands: it waits for the connection, or the step that
comes next is to write an answer, to drop the subscription before a credential is looked
at, to look at the credential, to subscribe, to declare the session closed, to drop its
subscription for good, to wait for the pinging to stop and close the connection; or it
is over. -/
inductive Reading
  | waiting
  | answering (frame : Frame)
  | presented (credential : String)
  | checking (credential : String)
  | joining (token : Token)
  | leaving
  | withdrawing
  | parting
  | done
  deriving DecidableEq

/-- Where the pinging of a session stands: it waits for its time, a ping is being
written, it is being written and never will be, or pinging has stopped. -/
inductive Pinging
  | resting
  | sending
  | stuck
  | stopped
  deriving DecidableEq, Repr

/-- How a connection takes what is written to it. -/
structure Socket where
  refusesFrames : Bool := false
  refusesPings : Bool := false
  stallsPings : Bool := false
  deriving DecidableEq, Repr

/-- A session: its connection, whether it has been declared closed, where it stands, and
when the next ping is due. -/
structure Session where
  connection : String
  closed : Bool := false
  reading : Reading := .waiting
  pinging : Pinging := .resting
  pingAt : Nat := 0
  socket : Socket := {}
  deriving DecidableEq

/-- How an event reaches a connection: through its session, as long as the token with
which the connection subscribed has not run out. -/
structure Reach where
  session : Nat
  token : Token
  deriving DecidableEq

/-- Where a delivery stands: it is about to look at the clock, to drop a subscription
whose token has run out, to write a frame, to declare closed a session that does not
take it, or to drop the subscription of that session. -/
inductive DeliveryStage
  | begun
  | expired
  | writing (frame : Frame)
  | refused
  | withdrawing
  deriving DecidableEq, Repr

/-- A delivery under way, with the number of the event that led to it. -/
structure Courier where
  number : Nat
  delivery : Delivery Reach
  stage : DeliveryStage := .begun
  deriving DecidableEq

/-- Why a frame is written: as an answer to the connection, or to deliver the event of
this number. -/
inductive Cause
  | answer
  | event (number : Nat)
  deriving DecidableEq, Repr

/-- What is written to the connection of a session. -/
inductive Output
  | frame (session : Nat) (frame : Frame) (cause : Cause)
  | ping (session : Nat)
  | goodbye (session : Nat)
  deriving DecidableEq, Repr

namespace Session

/-- The report of a frame that cannot be read. -/
def unreadable : Frame := .error "invalid message: *"

/-- What a session does about a frame it has read: a credential is looked at, and a frame
that is none is reported. -/
def respondTo (content : String) : Reading :=
  match Frame.parse content with
  | .error _ => .answering unreadable
  | .ok frame => if frame.kind = .auth then .presented frame.payload else .waiting

/-- What a session does about a signal. -/
def respond : Signal → Reading
  | .text content => respondTo content
  | .other => .waiting
  | .close | .failure | .ended => .leaving

/-- What a session does about a credential, at a time: it subscribes if the credential is
accepted and has not run out, and reports why not otherwise. -/
def judge (check : Validator) (now : Time.Instant) (credential : String) : Reading :=
  match check credential with
  | .error why => .answering (.error why.message)
  | .ok token =>
    if token.isExpired now then .answering (.error AuthFailure.expired.message)
    else .joining token

end Session

end WaitingRoom
