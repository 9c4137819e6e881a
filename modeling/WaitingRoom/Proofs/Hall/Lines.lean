import WaitingRoom.Hall.Moves

/-!
# The lines of a hall

What can be seen of a hall from outside, without sessions, subscriptions and deliveries: a
line for each connection, which is unauthenticated, authenticated as a user until a time, or
closed. What comes from outside acts on each line at once and on its own.
-/

namespace WaitingRoom

open Time (Instant)

/-- How a connection stands: nobody has identified themselves, a user has and is to be told
of events until a time, or the connection is closed. -/
inductive Standing
  | unauthenticated
  | authenticated (user : String) (expiry : Instant)
  | closed
  deriving DecidableEq

/-- A connection as it is seen from outside: how it stands, how it takes what is written to
it, when a ping is due, if ever, and the frames written to it. -/
structure Line where
  connection : String
  standing : Standing := .unauthenticated
  socket : Socket := {}
  pingAt : Option Nat := none
  written : List Frame := []
  deriving DecidableEq

namespace Line

/-- The end of a line. -/
def hangUp (l : Line) : Line := { l with standing := .closed, pingAt := none }

/-- Writes a frame. A connection that does not take it is closed. -/
def write (l : Line) (frame : Frame) : Line :=
  if l.socket.refusesFrames then l.hangUp else { l with written := l.written ++ [frame] }

/-- What a credential comes to: the line is authenticated if it is accepted and runs out
later than now, and unauthenticated otherwise, whoever it was authenticated as before. -/
def present (check : Validator) (now : Instant) (l : Line) (credential : String) : Line :=
  match check credential with
  | .error why => { l with standing := .unauthenticated }.write (.error why.message)
  | .ok token =>
    if token.expiresAt.atMost now then
      { l with standing := .unauthenticated }.write (.error AuthFailure.expired.message)
    else { l with standing := .authenticated token.userId token.expiresAt }.write .authOk

/-- What a signal comes to. A text that cannot be read is reported, and a frame that
presents no credential is left unanswered. -/
def hear (check : Validator) (now : Instant) (l : Line) : Signal → Line
  | .text content =>
    match Frame.parse content with
    | .error _ => l.write Session.unreadable
    | .ok frame => if frame.kind = .auth then l.present check now frame.payload else l
  | .other => l
  | .close | .failure | .ended => l.hangUp

/-- What an event comes to: a line that is authenticated as the user is told of it, or of
the need for a new credential if the time is over. -/
def tell (now : Instant) (user : String) (event : Event) (l : Line) : Line :=
  match l.standing with
  | .authenticated name expiry =>
    if name = user then
      if expiry.atMost now then { l with standing := .unauthenticated }.write .authRequest
      else l.write (.ofEvent event)
    else l
  | .unauthenticated | .closed => l

/-- When the next ping is due after all those are written that are due by a time: those
that are late by no more than may be are written one by one, a later one puts off those
after it. -/
def pingAfter (period elapsed due : Nat) : Nat :=
  if due + Hall.lateness < elapsed then elapsed + period
  else due + period * ((elapsed - due) / period + 1)

/-- What it comes to that it is later: if a ping is due it is written, or never will be, or
is refused, and then the connection is closed. -/
def tick (period elapsed : Nat) (l : Line) : Line :=
  match l.pingAt with
  | none => l
  | some due =>
    if elapsed < due then l
    else if l.socket.stallsPings then { l with pingAt := none }
    else if l.socket.refusesPings then l.hangUp
    else { l with pingAt := some (pingAfter period elapsed due) }

/-- What the line is subscribed to. -/
def subscription? (l : Line) : Option (String × String × Instant) :=
  match l.standing with
  | .authenticated user expiry => some (l.connection, user, expiry)
  | .unauthenticated | .closed => none

end Line

/-- All lines, how credentials are checked, the clock they are held against, and what else
acts on all lines at once. -/
structure Switchboard where
  check : Validator
  clock : Instant := Instant.epoch
  period : Nat := 30000
  elapsed : Nat := 0
  shuttingDown : Bool := false
  lines : List Line := []

/-- The connection that a move starts, if it does. -/
def Move.connection? : Move → Option String
  | connect connection => some connection
  | _ => none

namespace Switchboard

/-- A new line. After a shutdown it is closed at once. -/
def newLine (b : Switchboard) (connection : String) : Line :=
  if b.shuttingDown then { connection, standing := .closed }
  else { connection, pingAt := if b.period = 0 then none else some (b.elapsed + b.period) }

/-- What comes from outside acts on the lines; other moves are no concern of theirs. -/
def step (b : Switchboard) : Move → Switchboard
  | .connect connection => { b with lines := b.lines ++ [b.newLine connection] }
  | .receive i signal =>
    { b with lines := b.lines.modify i fun l =>
        if l.standing = .closed then l else l.hear b.check b.clock signal }
  | .trigger user event => { b with lines := b.lines.map (·.tell b.clock user event) }
  | .socket i socket => { b with lines := b.lines.modify i fun l => { l with socket } }
  | .setClock time => { b with clock := time }
  | .pass millis =>
    { b with
      elapsed := b.elapsed + millis
      lines := b.lines.map (·.tick b.period (b.elapsed + millis)) }
  | .shutDown => { b with shuttingDown := true, lines := b.lines.map (·.hangUp) }
  | _ => b

/-- A row of moves. -/
def run (b : Switchboard) (moves : List Move) : Switchboard := moves.foldl step b

end Switchboard

/-! ## Facts about lines -/

namespace Line

variable {l : Line} {period elapsed due : Nat}

/-- A line stays that of its connection when a frame is written. -/
@[simp] theorem connection_write (l : Line) (frame : Frame) :
    (l.write frame).connection = l.connection := by
  unfold write
  split <;> rfl

/-- It does whatever credential is presented. -/
@[simp] theorem connection_present (check : Validator) (now : Instant) (l : Line)
    (credential : String) : (l.present check now credential).connection = l.connection := by
  unfold present
  split
  · exact connection_write _ _
  · split <;> exact connection_write _ _

/-- It does whatever is heard. -/
@[simp] theorem connection_hear (check : Validator) (now : Instant) (l : Line) (signal : Signal) :
    (l.hear check now signal).connection = l.connection := by
  cases signal with
  | text content =>
    simp only [hear]
    split
    · exact connection_write _ _
    · split
      · exact connection_present check now l _
      · rfl
  | other | close | failure | ended => rfl

/-- It does whatever event it is told of. -/
@[simp] theorem connection_tell (now : Instant) (user : String) (event : Event) (l : Line) :
    (l.tell now user event).connection = l.connection := by
  unfold tell
  split
  · split
    · split <;> exact connection_write _ _
    · rfl
  all_goals rfl

/-- It does however late it is. -/
@[simp] theorem connection_tick (period elapsed : Nat) (l : Line) :
    (l.tick period elapsed).connection = l.connection := by
  unfold tick
  split
  · rfl
  · split
    · rfl
    · split
      · rfl
      · split <;> rfl

/-- What a line is subscribed to it is under the name of its connection. -/
theorem connection_of_subscription? {t : String × String × Instant}
    (ht : l.subscription? = some t) : t.1 = l.connection := by
  unfold subscription? at ht
  split at ht
  · obtain rfl := Option.some.inj ht
    rfl
  all_goals cases ht

/-- A credential is looked at if a session does so that hears the same. -/
theorem hear_of_presented {check : Validator} {now : Instant} {content credential : String}
    (hrespond : Session.respond (.text content) = .presented credential) :
    l.hear check now (.text content) = l.present check now credential := by
  simp only [Session.respond, Session.respondTo] at hrespond
  cases hparse : Frame.parse content with
  | error why =>
    simp only [hparse] at hrespond
    cases hrespond
  | ok frame =>
    simp only [hparse] at hrespond
    by_cases hkind : frame.kind = .auth
    · rw [if_pos hkind] at hrespond
      obtain rfl := Reading.presented.inj hrespond
      simp only [hear, hparse, if_pos hkind]
    · rw [if_neg hkind] at hrespond
      cases hrespond

/-- How a line stood before makes no difference to one that is hung up. -/
theorem hangUp_congr {l l' : Line} (hconnection : l.connection = l'.connection)
    (hsocket : l.socket = l'.socket) (hwritten : l.written = l'.written) :
    l.hangUp = l'.hangUp := by
  simp [hangUp, hconnection, hsocket, hwritten]

/-- A frame that is refused ends the line. -/
theorem write_of_refused {frame : Frame} (hrefuses : l.socket.refusesFrames = true) :
    l.write frame = l.hangUp := if_pos hrefuses

/-- A frame that is taken is written. -/
theorem write_of_taken {frame : Frame} (htakes : l.socket.refusesFrames = false) :
    l.write frame = { l with written := l.written ++ [frame] } := by
  simp [write, htakes]

/-- How a line stood before makes no difference to what a credential comes to. -/
theorem present_standing (check : Validator) (now : Instant) (l : Line) (standing : Standing)
    (credential : String) :
    { l with standing }.present check now credential = l.present check now credential := by
  unfold present
  split <;> rfl

/-- Nothing happens to a line before a ping is due. -/
theorem tick_of_lt (hpingAt : ∀ due, l.pingAt = some due → elapsed < due) :
    l.tick period elapsed = l := by
  unfold tick
  split
  · rfl
  · rename_i due hdue
    rw [if_pos (hpingAt due hdue)]

/-- All pings that are due are written if the first of them is, and then all that are due
still. -/
theorem pingAfter_eq {next : Nat} (hperiod : 0 < period) (hdue : due ≤ elapsed)
    (hnext : next = if due + Hall.lateness < elapsed then elapsed + period else due + period) :
    pingAfter period elapsed due =
      if elapsed < next then next else pingAfter period elapsed next := by
  unfold pingAfter
  by_cases hlate : due + Hall.lateness < elapsed
  · rw [if_pos hlate] at hnext
    rw [if_pos hlate, if_pos (by omega), hnext]
  · rw [if_neg hlate] at hnext
    subst hnext
    rw [if_neg hlate]
    by_cases hfar : elapsed < due + period
    · rw [if_pos hfar, Nat.div_eq_of_lt (by omega), Nat.zero_add, Nat.mul_one]
    · have hsplit : (elapsed - due) / period = (elapsed - (due + period)) / period + 1 := by
        rw [Nat.div_eq_sub_div hperiod (by omega), Nat.sub_sub]
      rw [if_neg hfar, if_neg (by omega), hsplit, Nat.mul_add, Nat.mul_one]
      omega

/-- A ping that is due never will be written, or it is refused, or else the ping after it is
the next one. -/
theorem tick_of_due {next : Nat} (hperiod : 0 < period) (hpingAt : l.pingAt = some due)
    (hdue : due ≤ elapsed)
    (hnext : next = if due + Hall.lateness < elapsed then elapsed + period else due + period) :
    l.tick period elapsed =
      if l.socket.stallsPings then { l with pingAt := none }
      else if l.socket.refusesPings then l.hangUp
      else { l with pingAt := some next }.tick period elapsed := by
  have hafter := pingAfter_eq hperiod hdue hnext
  simp only [tick, hpingAt]
  rw [if_neg (Nat.not_lt.mpr hdue), hafter]
  by_cases hstalls : l.socket.stallsPings = true
  · simp only [hstalls, if_true]
  by_cases hrefuses : l.socket.refusesPings = true
  · simp only [hrefuses, if_true]
  by_cases hfar : elapsed < next
  · simp only [hfar, if_true]
  · simp [hfar, hstalls, hrefuses]

end Line

/-- Which connections there are, in their order, is changed by moves that start one. -/
theorem Switchboard.connections_step (b : Switchboard) (m : Move) :
    (b.step m).lines.map Line.connection =
      b.lines.map Line.connection ++ m.connection?.toList := by
  have hmodify (i : Nat) (f : Line → Line) (hf : ∀ l, (f l).connection = l.connection) :
      (b.lines.modify i f).map Line.connection = b.lines.map Line.connection := by
    refine List.ext_getElem? fun j => ?_
    rw [List.getElem?_map, List.getElem?_modify, List.getElem?_map]
    cases b.lines[j]? with
    | none => rfl
    | some l =>
      by_cases hij : i = j
      · simp [hij, hf]
      · simp [hij]
  cases m with
  | connect connection =>
    have hnew : (b.newLine connection).connection = connection := by
      unfold newLine
      split <;> rfl
    simp [step, Move.connection?, hnew]
  | receive i signal =>
    refine (hmodify i _ fun l => ?_).trans (List.append_nil _).symm
    split
    · rfl
    · exact Line.connection_hear _ _ _ _
  | socket i socket =>
    exact (hmodify i (fun l => { l with socket }) fun _ => rfl).trans (List.append_nil _).symm
  | trigger | pass | shutDown => simp [step, Move.connection?, Function.comp_def, Line.hangUp]
  | setClock | notice | proceed | startPing | finishPing | stopPinging | deliver =>
    exact (List.append_nil _).symm

end WaitingRoom
