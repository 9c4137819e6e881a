import Mathlib.Algebra.GroupWithZero.Nat
import WaitingRoom.Proofs.Hall.Endings

/-!
# Coming to rest

Whatever happens, the work it gives rise to comes to an end: each piece of work leaves less
to do, whoever does what next. So every step from outside can be run until nothing is left
to do, and a row of such steps can be played.
-/

namespace WaitingRoom

/-! ## How much is left to do -/

/-- How many steps of its reading a session can have left to do. -/
def Reading.left : Reading → Nat
  | presented _ => 8
  | checking _ => 7
  | joining _ => 6
  | answering _ => 5
  | waiting => 4
  | leaving => 3
  | withdrawing => 2
  | parting => 1
  | done => 0

/-- How many steps of its pinging a session can have left to do by a time: two for each
ping that may be due, and one to stop. -/
def Session.pingsLeft (elapsed : Nat) (s : Session) : Nat :=
  match s.pinging with
  | .resting => 2 * (elapsed + 1 - s.pingAt) + 2
  | .sending => 2 * (elapsed + 1 - s.pingAt) + 3
  | .stuck => 1
  | .stopped => 0

/-- How many steps a session can have left to do by a time. -/
def Session.left (elapsed : Nat) (s : Session) : Nat := s.reading.left + s.pingsLeft elapsed

/-- How many steps a delivery can have left to do. -/
def Courier.left (c : Courier) : Nat :=
  match c.stage with
  | .begun => 5
  | .expired => 4
  | .writing _ => 3
  | .refused => 2
  | .withdrawing => 1

namespace Hall

/-- How many steps sessions and deliveries can have left to do. -/
def left (h : Hall) : Nat :=
  (h.sessions.map (Session.left h.elapsed)).sum + (h.couriers.map Courier.left).sum

/-- Whether sessions ping only where there is a period between pings. -/
def Pulses (h : Hall) : Prop :=
  ∀ (i : Nat) (s : Session), h.sessions[i]? = some s → s.pinging ≠ .stopped → 0 < h.period

variable {h h' : Hall} {m : Move} {i : Nat} {s : Session}

/-- What is left to do in all changes by what is left of the one that is replaced. -/
theorem sum_map_set {α : Type} (f : α → Nat) {l : List α} {i : Nat} {a : α} (b : α)
    (ha : l[i]? = some a) : ((l.set i b).map f).sum + f a = (l.map f).sum + f b := by
  induction l generalizing i with
  | nil => cases ha
  | cons c rest ih =>
    cases i with
    | zero =>
      obtain rfl : c = a := Option.some.inj ha
      simp only [List.set_cons_zero, List.map_cons, List.sum_cons]
      omega
    | succ i =>
      have hrest := ih ha
      simp only [List.set_cons_succ, List.map_cons, List.sum_cons]
      omega

/-- What is left to do in all is less by what is left of the one that goes. -/
theorem sum_map_eraseIdx {α : Type} (f : α → Nat) {l : List α} {i : Nat} {a : α}
    (ha : l[i]? = some a) : ((l.eraseIdx i).map f).sum + f a = (l.map f).sum := by
  induction l generalizing i with
  | nil => cases ha
  | cons c rest ih =>
    cases i with
    | zero =>
      obtain rfl : c = a := Option.some.inj ha
      simp only [List.eraseIdx_cons_zero, List.map_cons, List.sum_cons]
      omega
    | succ i =>
      have hrest := ih ha
      simp only [List.eraseIdx_cons_succ, List.map_cons, List.sum_cons]
      omega

/-- Less is left to do if less is left of the session that is replaced. -/
theorem left_put {i : Nat} {s s' : Session} (hs : h.sessions[i]? = some s)
    (hless : s'.left h.elapsed < s.left h.elapsed) : (h.put i s').left < h.left := by
  have hsum := sum_map_set (Session.left h.elapsed) s' hs
  dsimp only [left, put]
  omega

/-- Less is left to do if less is left of the delivery that is replaced. -/
theorem left_putCourier {k : Nat} {c c' : Courier} (hc : h.couriers[k]? = some c)
    (hless : c'.left < c.left) : (h.putCourier k c').left < h.left := by
  have hsum := sum_map_set Courier.left c' hc
  dsimp only [left, putCourier]
  omega

/-- Less is left to do when a delivery is over. -/
theorem left_dismiss {k : Nat} {c : Courier} (hc : h.couriers[k]? = some c) :
    (h.dismiss k).left < h.left := by
  have hsum := sum_map_eraseIdx Courier.left hc
  have hpos : 0 < c.left := by
    unfold Courier.left
    split <;> omega
  dsimp only [left, dismiss]
  omega

/-- To declare a session closed leaves as much to do as there was. -/
theorem left_change_closed (h : Hall) (i : Nat) :
    (h.change i fun s => { s with closed := true }).left = h.left := by
  cases hs : h.sessions[i]? with
  | none => rw [change_of_none hs]
  | some s =>
    rw [change_of_some hs]
    have hsum := sum_map_set (Session.left h.elapsed) { s with closed := true } hs
    have hsame : Session.left h.elapsed { s with closed := true } = s.left h.elapsed := rfl
    dsimp only [left, put]
    omega

/-- Work leaves less to do. -/
theorem Works.left_lt (hw : Works h m h') (hpulses : h.Pulses) : h'.left < h.left := by
  cases hw with
  | heed hs hreading | giveUp hs hreading | answer hs hreading | present hs hreading
  | join hs hreading | leave hs hreading | withdraw hs hreading | part hs hreading =>
    refine left_put hs ?_
    simp [Session.left, Session.pingsLeft, hreading, Reading.left]
  | @judge i s credential hs hreading =>
    refine left_put hs ?_
    rcases judge_cases h.check h.clock credential with ⟨token, _, _, hjudge⟩ | ⟨why, hjudge⟩
    all_goals simp [Session.left, Session.pingsLeft, hreading, hjudge, Reading.left]
  | @ping i s hs hresting hdue =>
    have hperiod : 0 < h.period := hpulses i s hs (by simp [hresting])
    refine left_put hs ?_
    have hnext : s.pingAt < h.nextPing s.pingAt := by
      unfold nextPing
      split <;> omega
    simp only [Session.left, Session.pingsLeft, hresting]
    omega
  | stall hs hsending | fail hs hsending | rest hs hsending =>
    refine left_put hs ?_
    simp only [Session.left, Session.pingsLeft, hsending]
    omega
  | @stop i s hs _ hgoes =>
    refine left_put hs ?_
    have hpos : 0 < s.pingsLeft h.elapsed := by
      unfold Session.pingsLeft
      cases hpinging : s.pinging with
      | stopped => exact absurd hpinging hgoes
      | resting | sending | stuck => simp
    simp only [Session.left]
    change _ + 0 < _
    omega
  | @look k c hc hstage =>
    refine left_putCourier hc ?_
    by_cases hexpired : c.delivery.target.reach.token.isExpired h.clock = true
    all_goals simp [Courier.left, hstage, hexpired]
  | expire hc hstage | refuse hc hstage =>
    refine left_putCourier hc ?_
    simp [Courier.left, hstage]
  | write hc | dismiss hc => exact left_dismiss hc
  | @close k c hc hstage =>
    rw [← h.left_change_closed c.delivery.target.reach.session]
    refine left_putCourier hc ?_
    simp [Courier.left, hstage]

/-! ## Rest -/

/-- Whether nothing is left to do: no move that sessions and deliveries can make on their
own changes anything. -/
def AtRest (h : Hall) : Prop := ∀ m, m.isInternal → h.step m = h

/-- Every move of work is internal. -/
theorem Works.isInternal (hw : Works h m h') : m.isInternal := by
  cases hw <;> rfl

/-- At rest there is no work. -/
theorem AtRest.not_works (hrest : h.AtRest) (hpulses : h.Pulses) : ¬ Works h m h' := by
  intro hw
  have hsame : h' = h := hw.step_eq.symm.trans (hrest m hw.isInternal)
  have hless := hw.left_lt hpulses
  rw [hsame] at hless
  exact Nat.lt_irrefl _ hless

/-- No move changes how often sessions ping. -/
theorem period_step (h : Hall) (m : Move) : (h.step m).period = h.period := by
  have ht := transition_step h m
  generalize h.step m = h' at ht ⊢
  cases ht <;> rfl

/-- Sessions ping only where there is a period, after a move as before. -/
theorem Pulses.step (hpulses : h.Pulses) (m : Move) : (h.step m).Pulses := by
  intro i s' hs' hgoes
  rw [period_step]
  rcases session_step m hs' with ⟨s, hs, hages⟩ | ⟨connection, rfl, _, rfl⟩
  · exact hpulses i s hs fun hstopped => hgoes (hages.stopped hstopped)
  · by_contra hzero
    exact hgoes (if_pos (Nat.eq_zero_of_not_pos hzero))

/-- Sessions ping only where there is a period, after a row of moves as before. -/
theorem Pulses.run (hpulses : h.Pulses) (moves : List Move) : (h.run moves).Pulses := by
  induction moves using List.reverseRecOn with
  | nil => exact hpulses
  | append_singleton moves m ih =>
    rw [run_append_singleton]
    exact ih.step m

/-- Whether sessions that wait for their pinging to stop are closed, so that it does. -/
def PartsClosed (h : Hall) : Prop :=
  ∀ (i : Nat) (s : Session), h.sessions[i]? = some s → s.reading = .parting → s.closed = true

/-- Sessions that wait for their pinging to stop are closed after a move if they were
before, and if those were that were about to drop their subscription. -/
theorem PartsClosed.step (hparts : h.PartsClosed) (hcons : h.Consistent) (m : Move) :
    (h.step m).PartsClosed := by
  intro i s' hs' hparting
  rcases session_step m hs' with ⟨s, hs, hages⟩ | ⟨connection, rfl, _, rfl⟩
  · refine hages.closed ?_
    rcases hages.parts hparting with hparted | hwithdrawing
    · exact hparts i s hs hparted
    · exact hcons.leaving i s hs hwithdrawing
  · cases hparting

/-- No delivery is under way at rest. -/
theorem AtRest.couriers_eq_nil (hrest : h.AtRest) (hpulses : h.Pulses) : h.couriers = [] := by
  cases hcouriers : h.couriers with
  | nil => rfl
  | cons c rest =>
    have hc : h.couriers[0]? = some c := by
      rw [hcouriers]
      rfl
    exact absurd (works_deliver hc) (hrest.not_works hpulses)

/-- A session is over at rest, or it waits and has no reason not to. -/
theorem AtRest.reading_cases (hrest : h.AtRest) (hpulses : h.Pulses) (hparts : h.PartsClosed)
    (hs : h.sessions[i]? = some s) :
    s.reading = .done ∨ s.reading = .waiting ∧ s.closed = false ∧ h.shuttingDown = false := by
  have hidle : ∀ m h', ¬ Works h m h' := fun _ _ => hrest.not_works hpulses
  cases hreading : s.reading with
  | done => exact .inl rfl
  | waiting =>
    cases hclosed : s.closed with
    | true => exact absurd (.heed hs hreading (by simp [hclosed])) (hidle _ _)
    | false =>
      cases hshutting : h.shuttingDown with
      | true => exact absurd (.heed hs hreading (by simp [hshutting])) (hidle _ _)
      | false => exact .inr ⟨rfl, rfl, rfl⟩
  | answering frame =>
    cases hsocket : s.socket.refusesFrames with
    | true => exact absurd (.giveUp hs hreading hsocket) (hidle _ _)
    | false => exact absurd (.answer hs hreading hsocket) (hidle _ _)
  | presented credential => exact absurd (.present hs hreading) (hidle _ _)
  | checking credential => exact absurd (.judge hs hreading) (hidle _ _)
  | joining token => exact absurd (.join hs hreading) (hidle _ _)
  | leaving => exact absurd (.leave hs hreading) (hidle _ _)
  | withdrawing => exact absurd (.withdraw hs hreading) (hidle _ _)
  | parting =>
    -- The session waits for its pinging to stop, which it does since the session is closed.
    by_cases hstopped : s.pinging = .stopped
    · exact absurd (.part hs hreading hstopped) (hidle _ _)
    · exact absurd (.stop hs (hparts i s hs hreading) hstopped) (hidle _ _)

/-- No ping is being written at rest, nor is one due. -/
theorem AtRest.pinging (hrest : h.AtRest) (hpulses : h.Pulses) (hs : h.sessions[i]? = some s) :
    s.pinging ≠ .sending ∧ (s.pinging = .resting → h.elapsed < s.pingAt) := by
  have hidle : ∀ m h', ¬ Works h m h' := fun _ _ => hrest.not_works hpulses
  constructor
  · intro hsending
    cases hstalls : s.socket.stallsPings with
    | true => exact hidle _ _ (.stall hs hsending hstalls)
    | false =>
      cases hrefuses : s.socket.refusesPings with
      | true => exact hidle _ _ (.fail hs hsending hstalls hrefuses)
      | false => exact hidle _ _ (.rest hs hsending hstalls hrefuses)
  · intro hresting
    by_contra hdue
    exact hidle _ _ (.ping hs hresting (Nat.not_lt.mp hdue))

/-- Whether work may bring a hall to rest in this state. -/
def SettlesTo (h h' : Hall) : Prop :=
  ∃ moves, (∀ m ∈ moves, m.isInternal) ∧ h.run moves = h' ∧ h'.AtRest

/-- Nothing is left to do in a hall that has come to rest. -/
theorem SettlesTo.atRest (hsettles : h.SettlesTo h') : h'.AtRest := by
  obtain ⟨_, _, _, hrest⟩ := hsettles
  exact hrest

/-- Work brings every hall to rest. -/
theorem exists_settlesTo (hpulses : h.Pulses) : ∃ h', h.SettlesTo h' := by
  induction hleft : h.left using Nat.strongRecOn generalizing h with
  | ind n ih =>
    by_cases hrest : h.AtRest
    · exact ⟨h, [], by simp, rfl, hrest⟩
    · obtain ⟨m, hm, hmoves⟩ : ∃ m : Move, m.isInternal ∧ h.step m ≠ h := by
        simpa [AtRest] using hrest
      have hw : Works h m (h.step m) := (works_step hm).resolve_left hmoves
      have hless := hw.left_lt hpulses
      rw [hleft] at hless
      obtain ⟨h', moves, hinternal, hrun, hends⟩ := ih _ hless (hpulses.step m) rfl
      exact ⟨h', m :: moves, List.forall_mem_cons.mpr ⟨hm, hinternal⟩, hrun, hends⟩

/-- Whether a row of steps can leave a hall in this state, each step being run until
nothing is left to do. Who does what next is left open. -/
def Plays (h : Hall) : List Move → Hall → Prop
  | [], h' => h' = h
  | m :: rest, h' => ∃ settled, (h.step m).SettlesTo settled ∧ settled.Plays rest h'

/-- Any row of steps can be played. -/
theorem exists_plays (hpulses : h.Pulses) (steps : List Move) : ∃ h', h.Plays steps h' := by
  induction steps generalizing h with
  | nil => exact ⟨h, rfl⟩
  | cons m rest ih =>
    obtain ⟨settled, moves, hinternal, rfl, hrest⟩ := exists_settlesTo (hpulses.step m)
    obtain ⟨h', hplays⟩ := ih ((hpulses.step m).run moves)
    exact ⟨h', _, ⟨moves, hinternal, rfl, hrest⟩, hplays⟩

end Hall

end WaitingRoom
