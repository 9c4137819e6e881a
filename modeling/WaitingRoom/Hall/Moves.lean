import WaitingRoom.Hall.Session

/-!
# The hall

All sessions of a waiting room, their subscriptions, and the events on their way to them.
What happens is a row of moves, each a single step of one of the parties. Any row of
moves is possible: whoever picks the next move decides how fast connections, deliveries
and clocks are, and a move that does not apply changes nothing.
-/

namespace WaitingRoom

open Time (Instant)

/-- The sessions and all they share. Times of pings are milliseconds of the service's own
time, which passes independently of the clock that tokens are held against. -/
structure Hall where
  check : Validator
  clock : Instant := Instant.epoch
  period : Nat := 30000
  elapsed : Nat := 0
  subscriptions : Subscriptions Reach := {}
  sessions : List Session := []
  couriers : List Courier := []
  events : Nat := 0
  shuttingDown : Bool := false
  outputs : List Output := []

/-- The steps of the parties. -/
inductive Move
  | connect (connection : String)
  | receive (session : Nat) (signal : Signal)
  | notice (session : Nat)
  | proceed (session : Nat)
  | startPing (session : Nat)
  | finishPing (session : Nat)
  | stopPinging (session : Nat)
  | trigger (user : String) (event : Event)
  | deliver (courier : Nat)
  | socket (session : Nat) (socket : Socket)
  | setClock (time : Instant)
  | pass (millis : Nat)
  | shutDown
  deriving DecidableEq

namespace Hall

/-- Puts a session in the place of the one with this number. -/
def put (h : Hall) (i : Nat) (s : Session) : Hall := { h with sessions := h.sessions.set i s }

/-- Changes the session with this number. -/
def change (h : Hall) (i : Nat) (f : Session → Session) : Hall :=
  { h with sessions := h.sessions.modify i f }

/-- Drops the subscription of a connection. -/
def withdraw (h : Hall) (connection : String) : Hall :=
  { h with subscriptions := h.subscriptions.unsubscribe connection }

/-- Notes what is written. -/
def emit (h : Hall) (o : Output) : Hall := { h with outputs := h.outputs ++ [o] }

/-- A new session. Without a period between pings there are none. -/
def connect (h : Hall) (connection : String) : Hall :=
  { h with sessions := h.sessions ++
      [{ connection, pingAt := h.elapsed + h.period,
         pinging := if h.period = 0 then .stopped else .resting }] }

/-- The next step of a session's reading. -/
def proceed (h : Hall) (i : Nat) (s : Session) : Hall :=
  match s.reading with
  | .waiting | .done => h
  | .answering frame =>
    if s.socket.refusesFrames then h.put i { s with reading := .leaving }
    else (h.put i { s with reading := .waiting }).emit (.frame i frame .answer)
  | .presented credential =>
    (h.withdraw s.connection).put i { s with reading := .checking credential }
  | .checking credential =>
    h.put i { s with reading := Session.judge h.check h.clock credential }
  | .joining token =>
    { h with subscriptions := h.subscriptions.subscribe s.connection token.userId ⟨i, token⟩ }.put i
      { s with reading := .answering .authOk }
  | .leaving => h.put i { s with closed := true, reading := .withdrawing }
  | .withdrawing => (h.withdraw s.connection).put i { s with reading := .parting }
  | .parting =>
    if s.pinging = .stopped then (h.put i { s with reading := .done }).emit (.goodbye i) else h

/-- How late, in milliseconds, a ping may be without putting off those after it. -/
def lateness : Nat := 5

/-- When the ping after one that was due at `due` is due. -/
def nextPing (h : Hall) (due : Nat) : Nat :=
  if due + lateness < h.elapsed then h.elapsed + h.period else due + h.period

/-- A ping is written when it is due. -/
def startPing (h : Hall) (i : Nat) (s : Session) : Hall :=
  if s.pinging = .resting ∧ s.pingAt ≤ h.elapsed then
    (h.put i { s with pinging := .sending, pingAt := h.nextPing s.pingAt }).emit (.ping i)
  else h

/-- What becomes of a ping. -/
def finishPing (s : Session) : Session :=
  if s.pinging = .sending then
    if s.socket.stallsPings then { s with pinging := .stuck }
    else if s.socket.refusesPings then { s with closed := true, pinging := .stopped }
    else { s with pinging := .resting }
  else s

/-- An event starts a delivery for each subscription to the user's devices. -/
def trigger (h : Hall) (user : String) (event : Event) : Hall :=
  { h with
    couriers := h.couriers ++ (h.subscriptions.trigger user event).map fun delivery =>
      { number := h.events, delivery }
    events := h.events + 1 }

/-- Puts a delivery in the place of the one at this position. -/
def putCourier (h : Hall) (k : Nat) (c : Courier) : Hall :=
  { h with couriers := h.couriers.set k c }

/-- Ends the delivery at this position. -/
def dismiss (h : Hall) (k : Nat) : Hall := { h with couriers := h.couriers.eraseIdx k }

/-- Whether the connection of a session takes frames. -/
def takesFrames (h : Hall) (i : Nat) : Bool :=
  match h.sessions[i]? with
  | some s => !s.socket.refusesFrames
  | none => false

/-- The next step of a delivery. -/
def deliver (h : Hall) (k : Nat) (c : Courier) : Hall :=
  let target := c.delivery.target
  match c.stage with
  | .begun =>
    h.putCourier k { c with
      stage :=
        if target.reach.token.isExpired h.clock then .expired
        else .writing (.ofEvent c.delivery.event) }
  | .expired =>
    (h.withdraw target.connection).putCourier k { c with stage := .writing .authRequest }
  | .writing frame =>
    if h.takesFrames target.reach.session then
      (h.dismiss k).emit (.frame target.reach.session frame (.event c.number))
    else h.putCourier k { c with stage := .refused }
  | .refused =>
    (h.change target.reach.session fun s => { s with closed := true }).putCourier k
      { c with stage := .withdrawing }
  | .withdrawing => (h.withdraw target.connection).dismiss k

/-- Lets a function see the session with this number, if there is one. -/
def atSession (h : Hall) (i : Nat) (f : Session → Hall) : Hall :=
  match h.sessions[i]? with
  | some s => f s
  | none => h

/-- One step. -/
def step (h : Hall) : Move → Hall
  | .connect connection => h.connect connection
  | .receive i signal =>
    h.change i fun s =>
      if s.reading = .waiting then { s with reading := Session.respond signal } else s
  | .notice i =>
    h.change i fun s =>
      if s.reading = .waiting ∧ (s.closed || h.shuttingDown) then { s with reading := .leaving }
      else s
  | .proceed i => h.atSession i (h.proceed i)
  | .startPing i => h.atSession i (h.startPing i)
  | .finishPing i => h.change i finishPing
  | .stopPinging i => h.change i fun s => if s.closed then { s with pinging := .stopped } else s
  | .trigger user event => h.trigger user event
  | .deliver k =>
    match h.couriers[k]? with
    | some c => h.deliver k c
    | none => h
  | .socket i socket => h.change i fun s => { s with socket }
  | .setClock time => { h with clock := time }
  | .pass millis => { h with elapsed := h.elapsed + millis }
  | .shutDown => { h with shuttingDown := true }

/-- A row of moves. -/
def run (h : Hall) (moves : List Move) : Hall := moves.foldl step h

end Hall

end WaitingRoom
