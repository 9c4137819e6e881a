import WaitingRoom.Proofs.Hall.History
import WaitingRoom.Proofs.Hall.Lines
import WaitingRoom.Proofs.Hall.Works

/-!
# Seats

A session with the subscriptions and the deliveries that reach it, and the frames written to
it, is what stands behind one line. While work is left to do there, the line is ahead of
it: this file says which line a seat is on its way to, whatever is under way, and that work
does not change that.
-/

namespace WaitingRoom

open Time (Instant)

/-- A session with the subscriptions and the deliveries that reach it, and the frames
written to it. -/
structure Seat where
  session : Session
  entries : List (Subscription Reach)
  couriers : List Courier
  frames : List Frame

/-- Whether a session that stands here is about to end, or over. -/
def Reading.isEnding : Reading → Bool
  | leaving | withdrawing | parting | done => true
  | _ => false

/-- Whether a session that stands here handles a frame. -/
def Reading.isBusy : Reading → Bool
  | answering _ | presented _ | checking _ | joining _ => true
  | _ => false

/-- What the line comes to that stands as this one when its session handles a frame. -/
def Reading.outcome (check : Validator) (now : Instant) (l : Line) : Reading → Line
  | answering frame => l.write frame
  | presented credential | checking credential => l.present check now credential
  | joining token =>
    { l with standing := .authenticated token.userId token.expiresAt }.write .authOk
  | _ => l

/-- What the line comes to that stands as this one when a delivery is on its way to it. -/
def Courier.outcome (now : Instant) (l : Line) (c : Courier) : Line :=
  match c.stage with
  | .begun =>
    if c.delivery.target.reach.token.isExpired now then
      { l with standing := .unauthenticated }.write .authRequest
    else l.write (.ofEvent c.delivery.event)
  | .expired => { l with standing := .unauthenticated }.write .authRequest
  | .writing frame => l.write frame
  | .refused | .withdrawing => l.hangUp

/-- What the line comes to that stands as this one when its pings have been written. -/
def Session.pingOutcome (period elapsed : Nat) (l : Line) (s : Session) : Line :=
  match s.pinging with
  | .resting => l.tick period elapsed
  | .sending =>
    if s.socket.stallsPings then l
    else if s.socket.refusesPings then l.hangUp
    else { l with pingAt := some s.pingAt }.tick period elapsed
  | .stuck | .stopped => l

namespace Seat

/-- How a connection stands with these subscriptions. -/
def standing : List (Subscription Reach) → Standing
  | [] => .unauthenticated
  | e :: _ => .authenticated e.user e.reach.token.expiresAt

/-- The line of a seat as it stands, without what is under way. -/
def line (x : Seat) : Line where
  connection := x.session.connection
  standing := standing x.entries
  socket := x.session.socket
  pingAt := if x.session.pinging = .resting then some x.session.pingAt else none
  written := x.frames

/-- What becomes of a seat when an event with this number is triggered: a delivery starts for
each subscription to the user's devices. -/
def tell (number : Nat) (user : String) (event : Event) (x : Seat) : Seat :=
  { x with
    couriers := x.couriers ++ (x.entries.filter fun e => e.user == user).map fun target =>
      { number, delivery := ⟨target, event⟩ } }

/-- Whether nothing has been done yet to end the session. -/
structure IsOpen (b : Switchboard) (x : Seat) : Prop where
  not_closed : x.session.closed = false
  not_shutting : b.shuttingDown = false

/-- Whether no ping is being written nor due. -/
structure IsQuiet (b : Switchboard) (x : Seat) : Prop where
  not_sending : x.session.pinging ≠ .sending
  not_due : x.session.pinging = .resting → b.elapsed < x.session.pingAt

/-- Nothing is left to do for the pings of a quiet seat. -/
theorem IsQuiet.pingOutcome_eq {b : Switchboard} {x : Seat} (hquiet : x.IsQuiet b) :
    x.session.pingOutcome b.period b.elapsed x.line = x.line := by
  unfold Session.pingOutcome
  cases hpinging : x.session.pinging with
  | sending => exact absurd hpinging hquiet.not_sending
  | resting =>
    refine Line.tick_of_lt fun due hdue => ?_
    have hdue' : some x.session.pingAt = some due := by simpa [line, hpinging] using hdue
    obtain rfl := Option.some.inj hdue'
    exact hquiet.not_due hpinging
  | stuck | stopped => rfl

/-- Whether the session is about to end, or would if it looked. -/
def Ends (b : Switchboard) (x : Seat) : Prop :=
  x.session.reading.isEnding ∨
    x.session.reading = .waiting ∧ (x.session.closed = true ∨ b.shuttingDown = true)

/-- A session that ends handles no frame. -/
theorem Ends.not_busy {b : Switchboard} {x : Seat} (hends : x.Ends b) :
    ¬ x.session.reading.isBusy := by
  rcases hends with hending | ⟨hwaiting, _⟩
  · cases hreading : x.session.reading with
    | leaving | withdrawing | parting | done => nofun
    | _ =>
      rw [hreading] at hending
      cases hending
  · rw [hwaiting]
    nofun

/-- It does not wait if nothing has been done yet to end it. -/
theorem Ends.not_waiting {b : Switchboard} {x : Seat} (hends : x.Ends b) (hopen : x.IsOpen b) :
    x.session.reading ≠ .waiting := by
  intro hwaiting
  rcases hends with hending | ⟨_, hclosed | hshutting⟩
  · rw [hwaiting] at hending
    cases hending
  · cases hopen.not_closed.symm.trans hclosed
  · cases hopen.not_shutting.symm.trans hshutting

end Seat

/-- Whether a seat is on its way to a line: one thing at a time is under way, be it a frame
that the session handles, a delivery to it, its pings, or its end, and when that is done the
line is reached. -/
inductive Foretells (b : Switchboard) (x : Seat) : Line → Prop
  | reading (hopen : x.IsOpen b) (hquiet : x.IsQuiet b) (hbusy : x.session.reading.isBusy)
      (hcouriers : x.couriers = []) :
      Foretells b x (x.session.reading.outcome b.check b.clock x.line)
  | delivering {c : Courier} (hopen : x.IsOpen b) (hquiet : x.IsQuiet b)
      (hwaiting : x.session.reading = .waiting) (hcouriers : x.couriers = [c])
      (hstage : c.stage ≠ .withdrawing) : Foretells b x (c.outcome b.clock x.line)
  | pinging (hopen : x.IsOpen b) (hwaiting : x.session.reading = .waiting)
      (hcouriers : x.couriers = []) :
      Foretells b x (x.session.pingOutcome b.period b.elapsed x.line)
  | ending (hends : x.Ends b) (hcouriers : ∀ c ∈ x.couriers, c.stage = .withdrawing) :
      Foretells b x x.line.hangUp

namespace Foretells

variable {b : Switchboard} {x : Seat} {l : Line}

/-! ## What is under way -/

/-- A seat is on its way to a line of its own connection. -/
theorem connection_eq (h : Foretells b x l) : l.connection = x.session.connection := by
  cases h with
  | reading =>
    cases x.session.reading with
    | answering | joining => exact Line.connection_write _ _
    | presented | checking => exact Line.connection_present _ _ _ _
    | _ => rfl
  | delivering =>
    unfold Courier.outcome
    split
    · split <;> exact Line.connection_write _ _
    · exact Line.connection_write _ _
    · exact Line.connection_write _ _
    · rfl
    · rfl
  | pinging =>
    unfold Session.pingOutcome
    split
    · exact Line.connection_tick _ _ _
    · split
      · rfl
      · split
        · rfl
        · exact Line.connection_tick _ _ _
    · rfl
    · rfl
  | ending => rfl

/-- Nothing else is under way where a session handles a frame. -/
theorem of_busy (h : Foretells b x l) (hbusy : x.session.reading.isBusy) :
    x.IsOpen b ∧ x.IsQuiet b ∧ x.couriers = [] ∧
      l = x.session.reading.outcome b.check b.clock x.line := by
  cases h with
  | reading hopen hquiet _ hcouriers => exact ⟨hopen, hquiet, hcouriers, rfl⟩
  | delivering _ _ hwaiting | pinging _ hwaiting =>
    rw [hwaiting] at hbusy
    cases hbusy
  | ending hends => exact absurd hbusy hends.not_busy

/-- Nothing else is under way where a delivery is. -/
theorem of_courier (h : Foretells b x l) {c : Courier} (hc : c ∈ x.couriers)
    (hstage : c.stage ≠ .withdrawing) :
    x.IsOpen b ∧ x.IsQuiet b ∧ x.session.reading = .waiting ∧ x.couriers = [c] ∧
      l = c.outcome b.clock x.line := by
  cases h with
  | reading _ _ _ hcouriers | pinging _ _ hcouriers =>
    rw [hcouriers] at hc
    cases hc
  | delivering hopen hquiet hwaiting hcouriers _ =>
    rw [hcouriers] at hc
    obtain rfl := List.mem_singleton.mp hc
    exact ⟨hopen, hquiet, hwaiting, hcouriers, rfl⟩
  | ending _ hcouriers => exact absurd (hcouriers c hc) hstage

/-- A seat whose session ends, or would if it looked, is on its way to the end of the
line. -/
theorem of_ends (h : Foretells b x l) (hends : x.Ends b) :
    (∀ c ∈ x.couriers, c.stage = .withdrawing) ∧ l = x.line.hangUp := by
  cases h with
  | reading _ _ hbusy => exact absurd hbusy hends.not_busy
  | delivering hopen _ hwaiting | pinging hopen hwaiting =>
    exact absurd hwaiting (hends.not_waiting hopen)
  | ending _ hcouriers => exact ⟨hcouriers, rfl⟩

/-- Pings are under way where nothing else is, but for the end. -/
theorem of_not_quiet (h : Foretells b x l) (hquiet : ¬ x.IsQuiet b) :
    (x.IsOpen b ∧ x.session.reading = .waiting ∧ x.couriers = [] ∧
      l = x.session.pingOutcome b.period b.elapsed x.line) ∨ x.Ends b := by
  cases h with
  | reading _ hquiet' | delivering _ hquiet' => exact absurd hquiet' hquiet
  | pinging hopen hwaiting hcouriers => exact .inl ⟨hopen, hwaiting, hcouriers, rfl⟩
  | ending hends => exact .inr hends

/-- A quiet seat whose session waits, and to which nothing is on its way, has reached its
line. -/
theorem waiting (hopen : x.IsOpen b) (hquiet : x.IsQuiet b)
    (hwaiting : x.session.reading = .waiting) (hcouriers : x.couriers = []) :
    Foretells b x x.line := by
  have hpings := Foretells.pinging hopen hwaiting hcouriers
  rwa [hquiet.pingOutcome_eq] at hpings

/-! ## Work at the end -/

/-- A session that ends is on its way to the end of its line if nothing is on its way to it. -/
theorem ended (hends : x.Ends b) (hcouriers : x.couriers = []) : Foretells b x x.line.hangUp := by
  refine .ending hends fun c hc => ?_
  rw [hcouriers] at hc
  cases hc

/-- A seat that is on its way to the end of its line is so still when no new delivery is on
its way to it and no frame has been written. -/
theorem stays_ending (h : Foretells b x l) (hends : x.Ends b) {x' : Seat} (hends' : x'.Ends b)
    (hcouriers : ∀ c ∈ x'.couriers, c ∈ x.couriers)
    (hconnection : x'.session.connection = x.session.connection)
    (hsocket : x'.session.socket = x.session.socket) (hframes : x'.frames = x.frames) :
    Foretells b x' l := by
  obtain ⟨hwithdrawing, rfl⟩ := h.of_ends hends
  have hline : x.line.hangUp = x'.line.hangUp :=
    Line.hangUp_congr hconnection.symm hsocket.symm hframes.symm
  rw [hline]
  exact .ending hends' fun c hc => hwithdrawing c (hcouriers c hc)

/-- A session that was declared closed ends, or would if it looked. -/
theorem ends_of_closed (h : Foretells b x l) (hclosed : x.session.closed = true) : x.Ends b := by
  cases h with
  | reading hopen | delivering hopen | pinging hopen =>
    cases hopen.not_closed.symm.trans hclosed
  | ending hends => exact hends

/-- So does one whose delivery is about to drop its subscription. -/
theorem ends_of_withdrawing (h : Foretells b x l) {c : Courier} (hc : c ∈ x.couriers)
    (hstage : c.stage = .withdrawing) : x.Ends b := by
  cases h with
  | reading _ _ _ hcouriers | pinging _ _ hcouriers =>
    rw [hcouriers] at hc
    cases hc
  | delivering _ _ _ hcouriers hgoes =>
    rw [hcouriers] at hc
    obtain rfl := List.mem_singleton.mp hc
    exact absurd hstage hgoes
  | ending hends => exact hends

/-- A session that ends goes on to do so. -/
theorem end_on (h : Foretells b x l) (hends : x.Ends b) {s : Session}
    {entries : List (Subscription Reach)} (hending : s.reading.isEnding)
    (hconnection : s.connection = x.session.connection) (hsocket : s.socket = x.session.socket) :
    Foretells b { x with session := s, entries } l :=
  h.stays_ending hends (.inl hending) (fun _ hc => hc) hconnection hsocket rfl

/-! ## Work on a frame -/

variable {frame : Frame} {credential : String} {token : Token}

/-- An answer is refused. -/
theorem giveUp (h : Foretells b x l) (hreading : x.session.reading = .answering frame)
    (hrefuses : x.session.socket.refusesFrames = true) :
    Foretells b { x with session := { x.session with reading := .leaving } } l := by
  obtain ⟨_, _, hcouriers, rfl⟩ := h.of_busy (by rw [hreading]; rfl)
  have hline : x.session.reading.outcome b.check b.clock x.line = x.line.hangUp := by
    rw [hreading]
    exact Line.write_of_refused hrefuses
  rw [hline]
  exact .ended (.inl rfl) hcouriers

/-- An answer is written. -/
theorem answer (h : Foretells b x l) (hreading : x.session.reading = .answering frame)
    (htakes : x.session.socket.refusesFrames = false) :
    Foretells b { x with
      session := { x.session with reading := .waiting }, frames := x.frames ++ [frame] } l := by
  obtain ⟨hopen, hquiet, hcouriers, rfl⟩ := h.of_busy (by rw [hreading]; rfl)
  have hline : x.session.reading.outcome b.check b.clock x.line =
      { x.line with written := x.line.written ++ [frame] } := by
    rw [hreading]
    exact Line.write_of_taken htakes
  rw [hline]
  exact .waiting ⟨hopen.1, hopen.2⟩ ⟨hquiet.1, hquiet.2⟩ rfl hcouriers

/-- A subscription is dropped before a credential is looked at. -/
theorem present (h : Foretells b x l) (hreading : x.session.reading = .presented credential) :
    Foretells b { x with
      session := { x.session with reading := .checking credential }, entries := [] } l := by
  obtain ⟨hopen, hquiet, hcouriers, rfl⟩ := h.of_busy (by rw [hreading]; rfl)
  have hline : x.session.reading.outcome b.check b.clock x.line =
      { x.line with standing := .unauthenticated }.present b.check b.clock credential := by
    rw [hreading, Line.present_standing]
    rfl
  rw [hline]
  exact .reading ⟨hopen.1, hopen.2⟩ ⟨hquiet.1, hquiet.2⟩ rfl hcouriers

/-- A credential is looked at when the connection has no subscription. -/
theorem judge (h : Foretells b x l) (hreading : x.session.reading = .checking credential)
    (hentries : x.entries = []) :
    Foretells b { x with
      session := { x.session with reading := Session.judge b.check b.clock credential } } l := by
  obtain ⟨hopen, hquiet, hcouriers, rfl⟩ := h.of_busy (by rw [hreading]; rfl)
  have hstanding : { x.line with standing := .unauthenticated } = x.line := by
    simp [Seat.line, Seat.standing, hentries]
  have hline : x.session.reading.outcome b.check b.clock x.line =
      (Session.judge b.check b.clock credential).outcome b.check b.clock x.line := by
    rw [hreading]
    change x.line.present b.check b.clock credential = _
    unfold Line.present Session.judge
    rw [hstanding]
    cases b.check credential with
    | error why => rfl
    | ok token =>
      by_cases hexpired : token.isExpired b.clock = true
      · simp only [hexpired]
        exact if_pos hexpired
      · simp only [hexpired]
        exact if_neg hexpired
  have hbusy : (Session.judge b.check b.clock credential).isBusy := by
    rcases Hall.judge_cases b.check b.clock credential with ⟨_, _, _, hjudge⟩ | ⟨_, hjudge⟩
    all_goals
      rw [hjudge]
      rfl
  rw [hline]
  exact .reading ⟨hopen.1, hopen.2⟩ ⟨hquiet.1, hquiet.2⟩ hbusy hcouriers

/-- The connection subscribes. -/
theorem join (h : Foretells b x l) (hreading : x.session.reading = .joining token) (i : Nat) :
    Foretells b { x with
      session := { x.session with reading := .answering .authOk }
      entries := [⟨x.session.connection, token.userId, ⟨i, token⟩⟩] } l := by
  obtain ⟨hopen, hquiet, hcouriers, rfl⟩ := h.of_busy (by rw [hreading]; rfl)
  rw [hreading]
  exact .reading ⟨hopen.1, hopen.2⟩ ⟨hquiet.1, hquiet.2⟩ rfl hcouriers

/-! ## Work on pings -/

/-- A ping that is due is written. -/
theorem ping (h : Foretells b x l) (hresting : x.session.pinging = .resting)
    (hdue : x.session.pingAt ≤ b.elapsed) (hperiod : 0 < b.period) {next : Nat}
    (hnext : next = if x.session.pingAt + Hall.lateness < b.elapsed then b.elapsed + b.period
      else x.session.pingAt + b.period) :
    Foretells b
      { x with session := { x.session with pinging := .sending, pingAt := next } } l := by
  have hquiet : ¬ x.IsQuiet b := fun hquiet => by
    have hlt := hquiet.not_due hresting
    omega
  rcases h.of_not_quiet hquiet with ⟨hopen, hwaiting, hcouriers, rfl⟩ | hends
  · have hpingAt : x.line.pingAt = some x.session.pingAt := if_pos hresting
    have hline : x.session.pingOutcome b.period b.elapsed x.line =
        Session.pingOutcome b.period b.elapsed
          { x.line with pingAt := none }
          { x.session with pinging := .sending, pingAt := next } := by
      simp only [Session.pingOutcome, hresting]
      exact Line.tick_of_due hperiod hpingAt hdue hnext
    rw [hline]
    exact .pinging ⟨hopen.1, hopen.2⟩ hwaiting hcouriers
  · exact h.stays_ending hends hends (fun _ hc => hc) rfl rfl rfl

/-- A ping is never going to be written. -/
theorem stall (h : Foretells b x l) (hsending : x.session.pinging = .sending)
    (hstalls : x.session.socket.stallsPings = true) :
    Foretells b { x with session := { x.session with pinging := .stuck } } l := by
  have hquiet : ¬ x.IsQuiet b := fun hquiet => hquiet.not_sending hsending
  rcases h.of_not_quiet hquiet with ⟨hopen, hwaiting, hcouriers, rfl⟩ | hends
  · have hline : x.session.pingOutcome b.period b.elapsed x.line =
        { x.line with pingAt := none } := by
      simp only [Session.pingOutcome, hsending, hstalls, if_true]
      simp [Seat.line, hsending]
    rw [hline]
    exact .pinging ⟨hopen.1, hopen.2⟩ hwaiting hcouriers
  · exact h.stays_ending hends hends (fun _ hc => hc) rfl rfl rfl

/-- A ping is refused. -/
theorem fail (h : Foretells b x l) (hsending : x.session.pinging = .sending)
    (hflows : x.session.socket.stallsPings = false)
    (hrefuses : x.session.socket.refusesPings = true) :
    Foretells b { x with session := { x.session with closed := true, pinging := .stopped } } l := by
  have hquiet : ¬ x.IsQuiet b := fun hquiet => hquiet.not_sending hsending
  rcases h.of_not_quiet hquiet with ⟨hopen, hwaiting, hcouriers, rfl⟩ | hends
  · have hline : x.session.pingOutcome b.period b.elapsed x.line = x.line.hangUp := by
      simp [Session.pingOutcome, hsending, hflows, hrefuses]
    rw [hline]
    exact .ended (.inr ⟨hwaiting, .inl rfl⟩) hcouriers
  · have hends' : ({ x with session := { x.session with
        closed := true, pinging := .stopped } } : Seat).Ends b :=
      hends.imp id fun hwaits => ⟨hwaits.1, .inl rfl⟩
    exact h.stays_ending hends hends' (fun _ hc => hc) rfl rfl rfl

/-- A ping has been written. -/
theorem rest (h : Foretells b x l) (hsending : x.session.pinging = .sending)
    (hflows : x.session.socket.stallsPings = false)
    (htakes : x.session.socket.refusesPings = false) :
    Foretells b { x with session := { x.session with pinging := .resting } } l := by
  have hquiet : ¬ x.IsQuiet b := fun hquiet => hquiet.not_sending hsending
  rcases h.of_not_quiet hquiet with ⟨hopen, hwaiting, hcouriers, rfl⟩ | hends
  · have hline : x.session.pingOutcome b.period b.elapsed x.line =
        { x.line with pingAt := some x.session.pingAt }.tick b.period b.elapsed := by
      simp [Session.pingOutcome, hsending, hflows, htakes]
    rw [hline]
    exact .pinging ⟨hopen.1, hopen.2⟩ hwaiting hcouriers
  · exact h.stays_ending hends hends (fun _ hc => hc) rfl rfl rfl

/-- The pinging of a closed session stops. -/
theorem stop (h : Foretells b x l) (hclosed : x.session.closed = true) :
    Foretells b { x with session := { x.session with pinging := .stopped } } l := by
  have hends := h.ends_of_closed hclosed
  exact h.stays_ending hends hends (fun _ hc => hc) rfl rfl rfl

/-! ## Work on deliveries -/

variable {c : Courier}

/-- A delivery looks at the clock. -/
theorem look (h : Foretells b x l) (hc : c ∈ x.couriers) (hstage : c.stage = .begun) :
    Foretells b { x with couriers := [{ c with
      stage := if c.delivery.target.reach.token.isExpired b.clock then .expired
        else .writing (.ofEvent c.delivery.event) }] } l := by
  obtain ⟨hopen, hquiet, hwaiting, _, rfl⟩ := h.of_courier hc (by rw [hstage]; nofun)
  by_cases hexpired : c.delivery.target.reach.token.isExpired b.clock = true
  · have hline : c.outcome b.clock x.line =
        { x.line with standing := .unauthenticated }.write .authRequest := by
      simp [Courier.outcome, hstage, hexpired]
    rw [hline, if_pos hexpired]
    refine .delivering (c := { c with stage := .expired }) ?_ ?_ hwaiting rfl nofun
    · exact ⟨hopen.1, hopen.2⟩
    · exact ⟨hquiet.1, hquiet.2⟩
  · have hline : c.outcome b.clock x.line = x.line.write (.ofEvent c.delivery.event) := by
      simp [Courier.outcome, hstage, hexpired]
    rw [hline, if_neg hexpired]
    refine .delivering (c := { c with stage := .writing (.ofEvent c.delivery.event) })
      ?_ ?_ hwaiting rfl nofun
    · exact ⟨hopen.1, hopen.2⟩
    · exact ⟨hquiet.1, hquiet.2⟩

/-- A delivery whose token has run out drops the subscription. -/
theorem expire (h : Foretells b x l) (hc : c ∈ x.couriers) (hstage : c.stage = .expired) :
    Foretells b { x with
      entries := [], couriers := [{ c with stage := .writing .authRequest }] } l := by
  obtain ⟨hopen, hquiet, hwaiting, _, rfl⟩ := h.of_courier hc (by rw [hstage]; nofun)
  have hline : c.outcome b.clock x.line =
      { x.line with standing := .unauthenticated }.write .authRequest := by
    simp [Courier.outcome, hstage]
  rw [hline]
  refine .delivering (c := { c with stage := .writing .authRequest }) ?_ ?_ hwaiting rfl nofun
  · exact ⟨hopen.1, hopen.2⟩
  · exact ⟨hquiet.1, hquiet.2⟩

/-- A delivery writes its frame. -/
theorem write (h : Foretells b x l) (hc : c ∈ x.couriers) (hstage : c.stage = .writing frame)
    (htakes : x.session.socket.refusesFrames = false) :
    Foretells b { x with couriers := [], frames := x.frames ++ [frame] } l := by
  obtain ⟨hopen, hquiet, hwaiting, _, rfl⟩ := h.of_courier hc (by rw [hstage]; nofun)
  have hline : c.outcome b.clock x.line =
      { x.line with written := x.line.written ++ [frame] } := by
    simp only [Courier.outcome, hstage]
    exact Line.write_of_taken htakes
  rw [hline]
  exact .waiting ⟨hopen.1, hopen.2⟩ ⟨hquiet.1, hquiet.2⟩ hwaiting rfl

/-- The frame of a delivery is refused. -/
theorem refuse (h : Foretells b x l) (hc : c ∈ x.couriers) (hstage : c.stage = .writing frame)
    (hrefuses : x.session.socket.refusesFrames = true) :
    Foretells b { x with couriers := [{ c with stage := .refused }] } l := by
  obtain ⟨hopen, hquiet, hwaiting, _, rfl⟩ := h.of_courier hc (by rw [hstage]; nofun)
  have hline : c.outcome b.clock x.line = x.line.hangUp := by
    simp only [Courier.outcome, hstage]
    exact Line.write_of_refused hrefuses
  rw [hline]
  refine .delivering (c := { c with stage := .refused }) ?_ ?_ hwaiting rfl nofun
  · exact ⟨hopen.1, hopen.2⟩
  · exact ⟨hquiet.1, hquiet.2⟩

/-- A delivery that was refused declares the session closed. -/
theorem close (h : Foretells b x l) (hc : c ∈ x.couriers) (hstage : c.stage = .refused) :
    Foretells b { x with
      session := { x.session with closed := true }
      couriers := [{ c with stage := .withdrawing }] } l := by
  obtain ⟨_, _, hwaiting, _, rfl⟩ := h.of_courier hc (by rw [hstage]; nofun)
  have hline : c.outcome b.clock x.line = x.line.hangUp := by
    simp only [Courier.outcome, hstage]
  rw [hline]
  refine .ending (.inr ⟨hwaiting, .inl rfl⟩) fun c' hc' => ?_
  rw [List.mem_singleton.mp hc']

/-- A delivery that was refused drops the subscription and is over. -/
theorem dismiss (h : Foretells b x l) (hc : c ∈ x.couriers) (hstage : c.stage = .withdrawing)
    {entries : List (Subscription Reach)} {couriers : List Courier}
    (hcouriers : ∀ c ∈ couriers, c ∈ x.couriers) :
    Foretells b { x with entries, couriers } l := by
  have hends := h.ends_of_withdrawing hc hstage
  exact h.stays_ending hends hends hcouriers rfl rfl rfl

end Foretells

/-! ## Seats at rest -/

/-- Whether a seat has reached a line: it is quiet and waits, or it is over. -/
inductive Rests (b : Switchboard) (x : Seat) : Line → Prop
  | waits (hopen : x.IsOpen b) (hquiet : x.IsQuiet b) (hwaiting : x.session.reading = .waiting)
      (hcouriers : x.couriers = []) : Rests b x x.line
  | finished (hdone : x.session.reading = .done) (hcouriers : x.couriers = [])
      (hentries : x.entries = []) : Rests b x x.line.hangUp

namespace Seat

/-- A connection that is not closed stands as its subscriptions say. -/
theorem standing_ne_closed (entries : List (Subscription Reach)) : standing entries ≠ .closed := by
  cases entries <;> nofun

end Seat

namespace Rests

variable {b : Switchboard} {x : Seat} {l : Line}

/-- A quiet seat whose session waits, and to which nothing is on its way, has reached the
line that it was on its way to. -/
theorem of_waiting (h : Foretells b x l) (hopen : x.IsOpen b) (hquiet : x.IsQuiet b)
    (hwaiting : x.session.reading = .waiting) (hcouriers : x.couriers = []) : Rests b x l := by
  have hline : l = x.line := by
    cases h with
    | reading _ _ hbusy =>
      rw [hwaiting] at hbusy
      cases hbusy
    | delivering _ _ _ hcourier =>
      rw [hcouriers] at hcourier
      cases hcourier
    | pinging => exact hquiet.pingOutcome_eq
    | ending hends => exact absurd hwaiting (hends.not_waiting hopen)
  rw [hline]
  exact .waits hopen hquiet hwaiting hcouriers

/-- So has one that is over. -/
theorem of_done (h : Foretells b x l) (hdone : x.session.reading = .done)
    (hcouriers : x.couriers = []) (hentries : x.entries = []) : Rests b x l := by
  obtain ⟨_, rfl⟩ := h.of_ends (.inl (by rw [hdone]; rfl))
  exact .finished hdone hcouriers hentries

/-- The frames that were written are those of the line. -/
theorem written_eq (h : Rests b x l) : l.written = x.frames := by
  cases h <;> rfl

/-- The session is over if the line is closed. -/
theorem done_iff (h : Rests b x l) : x.session.reading = .done ↔ l.standing = .closed := by
  cases h with
  | waits _ _ hwaiting =>
    rw [hwaiting]
    exact iff_of_false nofun (Seat.standing_ne_closed x.entries)
  | finished hdone => exact iff_of_true hdone rfl

/-- The line is authenticated if its session is subscribed, and as the user and until the
time for which it is. -/
theorem subscription?_eq (h : Rests b x l) :
    l.subscription? = x.entries.head?.map fun e =>
      (x.session.connection, e.user, e.reach.token.expiresAt) := by
  cases h with
  | waits =>
    unfold Line.subscription? Seat.line
    cases x.entries <;> rfl
  | finished _ _ hentries =>
    rw [hentries]
    rfl

/-- A seat that is over has reached the end of its line. -/
theorem foretells_finished (hdone : x.session.reading = .done) (hcouriers : x.couriers = []) :
    Foretells b x x.line.hangUp := by
  exact .ended (.inl (by rw [hdone]; rfl)) hcouriers

/-- A seat that has reached its line is on its way to it, whatever the time of tokens and the
lines of others. -/
theorem foretells (h : Rests b x l) (clock : Instant) (lines : List Line) :
    Foretells { b with clock, lines } x l := by
  cases h with
  | waits hopen hquiet hwaiting hcouriers =>
    exact .waiting ⟨hopen.1, hopen.2⟩ ⟨hquiet.1, hquiet.2⟩ hwaiting hcouriers
  | finished hdone hcouriers _ => exact foretells_finished hdone hcouriers

/-- A session that waits hears a signal as its line does, and one that is over hears none. -/
theorem hear (h : Rests b x l) (signal : Signal) (lines : List Line) :
    Foretells { b with lines }
      { x with session := if x.session.reading = .waiting then
          { x.session with reading := Session.respond signal } else x.session }
      (if l.standing = .closed then l else l.hear b.check b.clock signal) := by
  cases h with
  | finished hdone hcouriers _ =>
    rw [if_neg (by rw [hdone]; nofun)]
    change Foretells _ x (if Standing.closed = .closed then _ else _)
    rw [if_pos rfl]
    exact foretells_finished hdone hcouriers
  | waits hopen hquiet hwaiting hcouriers =>
    have hstanding : x.line.standing ≠ .closed := Seat.standing_ne_closed x.entries
    rw [if_pos hwaiting, if_neg hstanding]
    have hreads (r : Reading) (hbusy : r.isBusy) : Foretells { b with lines }
        { x with session := { x.session with reading := r } } (r.outcome b.check b.clock x.line) :=
      .reading (x := { x with session := { x.session with reading := r } })
        ⟨hopen.1, hopen.2⟩ ⟨hquiet.1, hquiet.2⟩ hbusy hcouriers
    have hwaits : Foretells { b with lines }
        { x with session := { x.session with reading := .waiting } } x.line :=
      .waiting ⟨hopen.1, hopen.2⟩ ⟨hquiet.1, hquiet.2⟩ rfl hcouriers
    have hleaves : Foretells { b with lines }
        { x with session := { x.session with reading := .leaving } } x.line.hangUp := by
      exact .ended (.inl rfl) hcouriers
    cases signal with
    | other => exact hwaits
    | close | failure | ended => exact hleaves
    | text content =>
      cases hparse : Frame.parse content with
      | error why =>
        simp only [Line.hear, Session.respond, Session.respondTo, hparse]
        exact hreads (.answering Session.unreadable) rfl
      | ok frame =>
        simp only [Line.hear, Session.respond, Session.respondTo, hparse]
        by_cases hkind : frame.kind = .auth
        · rw [if_pos hkind, if_pos hkind]
          exact hreads (.presented frame.payload) rfl
        · rw [if_neg hkind, if_neg hkind]
          exact hwaits

/-- A socket takes what is written as it is told to, by session and line alike. -/
theorem socket (h : Rests b x l) (socket : Socket) (lines : List Line) :
    Foretells { b with lines } { x with session := { x.session with socket } }
      { l with socket } := by
  cases h with
  | finished hdone hcouriers _ => exact foretells_finished hdone hcouriers
  | waits hopen hquiet hwaiting hcouriers =>
    exact .waiting ⟨hopen.1, hopen.2⟩ ⟨hquiet.1, hquiet.2⟩ hwaiting hcouriers

/-- An event starts a delivery to a session that is subscribed to it, and to no other. -/
theorem tell (h : Rests b x l) (user : String) (event : Event) (number : Nat) (lines : List Line)
    (hsingle : x.entries = [] ∨ ∃ e, x.entries = [e]) :
    Foretells { b with lines } (x.tell number user event) (l.tell b.clock user event) := by
  have hpassed (hline : l.tell b.clock user event = l)
      (hnone : (x.entries.filter fun e => e.user == user) = []) :
      Foretells { b with lines } (x.tell number user event) (l.tell b.clock user event) := by
    rw [hline, Seat.tell, hnone, List.map_nil, List.append_nil]
    exact h.foretells b.clock lines
  cases h with
  | finished _ _ hentries => exact hpassed rfl (by rw [hentries, List.filter_nil])
  | waits hopen hquiet hwaiting hcouriers =>
    rcases hsingle with hnone | ⟨e, hsome⟩
    · refine hpassed ?_ (by rw [hnone, List.filter_nil])
      simp [Line.tell, Seat.line, Seat.standing, hnone]
    by_cases huser : e.user = user
    · have hline : x.line.tell b.clock user event =
          Courier.outcome b.clock x.line { number, delivery := ⟨e, event⟩ } := by
        simp [Line.tell, Courier.outcome, Seat.line, Seat.standing, hsome, huser, Token.isExpired]
      have hchosen : (x.entries.filter fun e => e.user == user) = [e] := by simp [hsome, huser]
      rw [hline, Seat.tell, hchosen, hcouriers]
      refine .delivering (c := { number, delivery := ⟨e, event⟩ }) ?_ ?_ hwaiting rfl nofun
      · exact ⟨hopen.1, hopen.2⟩
      · exact ⟨hquiet.1, hquiet.2⟩
    · refine hpassed ?_ (by simp [hsome, huser])
      simp [Line.tell, Seat.line, Seat.standing, hsome, huser]

/-- Pings fall due for session and line alike. -/
theorem tick (h : Rests b x l) (millis : Nat) (lines : List Line) :
    Foretells { b with elapsed := b.elapsed + millis, lines } x
      (l.tick b.period (b.elapsed + millis)) := by
  cases h with
  | finished hdone hcouriers _ => exact foretells_finished hdone hcouriers
  | waits hopen hquiet hwaiting hcouriers =>
    have hline : x.line.tick b.period (b.elapsed + millis) =
        x.session.pingOutcome b.period (b.elapsed + millis) x.line := by
      unfold Session.pingOutcome
      cases hpinging : x.session.pinging with
      | resting => rfl
      | sending => exact absurd hpinging hquiet.not_sending
      | stuck | stopped =>
        exact Line.tick_of_lt fun due hdue => by simp [Seat.line, hpinging] at hdue
    rw [hline]
    exact .pinging ⟨hopen.1, hopen.2⟩ hwaiting hcouriers

/-- A shutdown ends session and line alike. -/
theorem shutDown (h : Rests b x l) (lines : List Line) :
    Foretells { b with shuttingDown := true, lines } x l.hangUp := by
  cases h with
  | finished hdone hcouriers _ => exact foretells_finished hdone hcouriers
  | waits hopen hquiet hwaiting hcouriers =>
    exact .ended (.inr ⟨hwaiting, .inr rfl⟩) hcouriers

end Rests

/-- A line starts as its session does: at rest, or at its end after a shutdown. -/
theorem Foretells.newLine (b : Switchboard) (connection : String) (lines : List Line) :
    Foretells { b with lines }
      { session := { connection, pingAt := b.elapsed + b.period,
                     pinging := if b.period = 0 then .stopped else .resting }
        entries := [], couriers := [], frames := [] }
      (b.newLine connection) := by
  unfold Switchboard.newLine
  by_cases hshutting : b.shuttingDown = true
  · rw [if_pos hshutting]
    exact .ended (.inr ⟨rfl, .inr hshutting⟩) rfl
  · rw [if_neg hshutting]
    have hopen := eq_false_of_ne_true hshutting
    by_cases hperiod : b.period = 0
    · simp only [if_pos hperiod]
      exact .waiting ⟨rfl, hopen⟩ ⟨nofun, nofun⟩ rfl rfl
    · simp only [if_neg hperiod]
      refine .waiting ⟨rfl, hopen⟩ ⟨nofun, fun _ => ?_⟩ rfl rfl
      exact Nat.lt_add_of_pos_right (Nat.pos_of_ne_zero hperiod)

end WaitingRoom
