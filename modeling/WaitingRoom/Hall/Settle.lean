import WaitingRoom.Hall.Moves

/-!
# Coming to rest

The moves after which nothing is left to do but to wait for connections, events and
time: every delivery has been made and every session has done what it could.
-/

namespace WaitingRoom

namespace Session

/-- The moves that answer whatever the session with this number has read. -/
def answerMoves (i : Nat) : List Move := List.replicate 7 (.proceed i)

/-- The moves that write all pings that are due to the session with this number: those
that are late by no more than may be, and the one that is due now. -/
def pingMoves (i : Nat) : List Move :=
  (List.replicate (Hall.lateness + 1) [Move.startPing i, .finishPing i]).flatten

/-- The moves that bring the session with this number to rest. -/
def restMoves (i : Nat) : List Move :=
  [.notice i] ++ answerMoves i ++ [.stopPinging i] ++ pingMoves i ++
    [.stopPinging i, .notice i] ++ answerMoves i

/-- The moves by which the session with this number reads signals one after the other. -/
def readMoves (i : Nat) (signals : List Signal) : List Move :=
  signals.flatMap fun signal => .receive i signal :: answerMoves i

end Session

namespace Hall

/-- The moves that finish all deliveries under way. -/
def deliverMoves (h : Hall) : List Move := List.replicate (5 * h.couriers.length) (.deliver 0)

/-- Comes to rest. -/
def settle (h : Hall) : Hall :=
  (h.run h.deliverMoves).run ((List.range h.sessions.length).flatMap Session.restMoves)

/-- Makes a row of moves and comes to rest. -/
def act (h : Hall) (moves : List Move) : Hall := (h.run moves).settle

/-- The number of the latest session of a connection. -/
def latest? (h : Hall) (connection : String) : Option Nat :=
  (List.range h.sessions.length).reverse.find? fun i =>
    (h.sessions[i]?.map (·.connection)) == some connection

/-- Whether the reading of the session with this number is over. -/
def isOver (h : Hall) (i : Nat) : Bool := (h.sessions[i]?.map (·.reading)) == some .done

/-- Forgets what was written. -/
def forget (h : Hall) : Hall := { h with outputs := [] }

/-- Starts a session for a connection; an earlier session of it meets its end. -/
def welcome (h : Hall) (connection : String) : Hall :=
  let moves := match h.latest? connection with
    | some old => [.connect connection, .receive old .ended]
    | none => [.connect connection]
  h.act moves

end Hall

end WaitingRoom
