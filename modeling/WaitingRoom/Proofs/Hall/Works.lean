import WaitingRoom.Proofs.Hall.Transitions

/-!
# The work of a hall

Some moves come from outside: connections and what they send, events, sockets, clocks, the
shutdown. All others are work that sessions and deliveries do on their own when it is left
to do. This file says precisely when a move is such work and what it leaves, where
transitions say no more than what can happen, and that work comes to an end.
-/

namespace WaitingRoom

/-- Whether a move is made by sessions and deliveries on their own. -/
def Move.isInternal : Move → Bool
  | notice _ | proceed _ | startPing _ | finishPing _ | stopPinging _ | deliver _ => true
  | _ => false

namespace Hall

/-- The work that is left to do in a hall: the moves that sessions and deliveries can make
on their own, each on the condition that there is something to do, and what they leave. -/
inductive Works (h : Hall) : Move → Hall → Prop
  | heed {i : Nat} {s : Session} (hs : h.sessions[i]? = some s) (hreading : s.reading = .waiting)
      (hends : s.closed || h.shuttingDown) :
      Works h (.notice i) (h.put i { s with reading := .leaving })
  | giveUp {i : Nat} {s : Session} {frame : Frame} (hs : h.sessions[i]? = some s)
      (hreading : s.reading = .answering frame) (hrefuses : s.socket.refusesFrames = true) :
      Works h (.proceed i) (h.put i { s with reading := .leaving })
  | answer {i : Nat} {s : Session} {frame : Frame} (hs : h.sessions[i]? = some s)
      (hreading : s.reading = .answering frame) (htakes : s.socket.refusesFrames = false) :
      Works h (.proceed i)
        ((h.put i { s with reading := .waiting }).emit (.frame i frame .answer))
  | present {i : Nat} {s : Session} {credential : String} (hs : h.sessions[i]? = some s)
      (hreading : s.reading = .presented credential) :
      Works h (.proceed i)
        ((h.withdraw s.connection).put i { s with reading := .checking credential })
  | judge {i : Nat} {s : Session} {credential : String} (hs : h.sessions[i]? = some s)
      (hreading : s.reading = .checking credential) :
      Works h (.proceed i) (h.put i { s with reading := Session.judge h.check h.clock credential })
  | join {i : Nat} {s : Session} {token : Token} (hs : h.sessions[i]? = some s)
      (hreading : s.reading = .joining token) :
      Works h (.proceed i)
        ({ h with
            subscriptions := h.subscriptions.subscribe s.connection token.userId ⟨i, token⟩ }.put i
          { s with reading := .answering .authOk })
  | leave {i : Nat} {s : Session} (hs : h.sessions[i]? = some s) (hreading : s.reading = .leaving) :
      Works h (.proceed i) (h.put i { s with closed := true, reading := .withdrawing })
  | withdraw {i : Nat} {s : Session} (hs : h.sessions[i]? = some s)
      (hreading : s.reading = .withdrawing) :
      Works h (.proceed i) ((h.withdraw s.connection).put i { s with reading := .parting })
  | part {i : Nat} {s : Session} (hs : h.sessions[i]? = some s) (hreading : s.reading = .parting)
      (hstopped : s.pinging = .stopped) :
      Works h (.proceed i) ((h.put i { s with reading := .done }).emit (.goodbye i))
  | ping {i : Nat} {s : Session} (hs : h.sessions[i]? = some s) (hresting : s.pinging = .resting)
      (hdue : s.pingAt ≤ h.elapsed) :
      Works h (.startPing i)
        ((h.put i { s with pinging := .sending, pingAt := h.nextPing s.pingAt }).emit (.ping i))
  | stall {i : Nat} {s : Session} (hs : h.sessions[i]? = some s) (hsending : s.pinging = .sending)
      (hstalls : s.socket.stallsPings = true) :
      Works h (.finishPing i) (h.put i { s with pinging := .stuck })
  | fail {i : Nat} {s : Session} (hs : h.sessions[i]? = some s) (hsending : s.pinging = .sending)
      (hflows : s.socket.stallsPings = false) (hrefuses : s.socket.refusesPings = true) :
      Works h (.finishPing i) (h.put i { s with closed := true, pinging := .stopped })
  | rest {i : Nat} {s : Session} (hs : h.sessions[i]? = some s) (hsending : s.pinging = .sending)
      (hflows : s.socket.stallsPings = false) (htakes : s.socket.refusesPings = false) :
      Works h (.finishPing i) (h.put i { s with pinging := .resting })
  | stop {i : Nat} {s : Session} (hs : h.sessions[i]? = some s) (hclosed : s.closed = true)
      (hgoes : s.pinging ≠ .stopped) :
      Works h (.stopPinging i) (h.put i { s with pinging := .stopped })
  | look {k : Nat} {c : Courier} (hc : h.couriers[k]? = some c) (hstage : c.stage = .begun) :
      Works h (.deliver k) (h.putCourier k { c with
        stage := if c.delivery.target.reach.token.isExpired h.clock then .expired
          else .writing (.ofEvent c.delivery.event) })
  | expire {k : Nat} {c : Courier} (hc : h.couriers[k]? = some c) (hstage : c.stage = .expired) :
      Works h (.deliver k) ((h.withdraw c.delivery.target.connection).putCourier k
        { c with stage := .writing .authRequest })
  | write {k : Nat} {c : Courier} {frame : Frame} (hc : h.couriers[k]? = some c)
      (hstage : c.stage = .writing frame) (htakes : h.takesFrames c.delivery.target.reach.session) :
      Works h (.deliver k)
        ((h.dismiss k).emit (.frame c.delivery.target.reach.session frame (.event c.number)))
  | refuse {k : Nat} {c : Courier} {frame : Frame} (hc : h.couriers[k]? = some c)
      (hstage : c.stage = .writing frame)
      (hrefuses : ¬ h.takesFrames c.delivery.target.reach.session) :
      Works h (.deliver k) (h.putCourier k { c with stage := .refused })
  | close {k : Nat} {c : Courier} (hc : h.couriers[k]? = some c) (hstage : c.stage = .refused) :
      Works h (.deliver k)
        ((h.change c.delivery.target.reach.session fun s => { s with closed := true }).putCourier k
          { c with stage := .withdrawing })
  | dismiss {k : Nat} {c : Courier} (hc : h.couriers[k]? = some c)
      (hstage : c.stage = .withdrawing) :
      Works h (.deliver k) ((h.withdraw c.delivery.target.connection).dismiss k)

variable {h h' : Hall} {m : Move} {i : Nat} {s : Session}

/-! ## Every internal move is work, or there is nothing to do -/

/-- A session in whose place it is put itself is as it was. -/
theorem put_self (hs : h.sessions[i]? = some s) : h.put i s = h := by
  obtain ⟨hi, rfl⟩ := List.getElem?_eq_some_iff.mp hs
  rw [put, List.set_getElem_self]

/-- The next step of the reading of a session is work, or there is none. -/
theorem works_proceed (hs : h.sessions[i]? = some s) :
    h.proceed i s = h ∨ Works h (.proceed i) (h.proceed i s) := by
  unfold proceed
  cases hreading : s.reading with
  | waiting | done => exact .inl rfl
  | answering frame =>
    simp only
    split
    · rename_i hrefuses
      exact .inr (.giveUp hs hreading hrefuses)
    · rename_i htakes
      exact .inr (.answer hs hreading (eq_false_of_ne_true htakes))
  | presented credential => exact .inr (.present hs hreading)
  | checking credential => exact .inr (.judge hs hreading)
  | joining token => exact .inr (.join hs hreading)
  | leaving => exact .inr (.leave hs hreading)
  | withdrawing => exact .inr (.withdraw hs hreading)
  | parting =>
    simp only
    split
    · rename_i hstopped
      exact .inr (.part hs hreading hstopped)
    · exact .inl rfl

/-- What becomes of a ping is work, or there is none under way. -/
theorem works_finishPing (hs : h.sessions[i]? = some s) :
    h.put i (finishPing s) = h ∨ Works h (.finishPing i) (h.put i (finishPing s)) := by
  unfold finishPing
  by_cases hsending : s.pinging = .sending
  · rw [if_pos hsending]
    by_cases hstalls : s.socket.stallsPings = true
    · rw [if_pos hstalls]
      exact .inr (.stall hs hsending hstalls)
    · rw [if_neg hstalls]
      have hflows := eq_false_of_ne_true hstalls
      by_cases hrefuses : s.socket.refusesPings = true
      · rw [if_pos hrefuses]
        exact .inr (.fail hs hsending hflows hrefuses)
      · rw [if_neg hrefuses]
        exact .inr (.rest hs hsending hflows (eq_false_of_ne_true hrefuses))
  · rw [if_neg hsending]
    exact .inl (put_self hs)

/-- The next step of a delivery is work. -/
theorem works_deliver {k : Nat} {c : Courier} (hc : h.couriers[k]? = some c) :
    Works h (.deliver k) (h.deliver k c) := by
  unfold deliver
  cases hstage : c.stage with
  | begun => exact .look hc hstage
  | expired => exact .expire hc hstage
  | writing frame =>
    simp only
    split
    · rename_i htakes
      exact .write hc hstage htakes
    · rename_i hrefuses
      exact .refuse hc hstage hrefuses
  | refused => exact .close hc hstage
  | withdrawing => exact .dismiss hc hstage

/-- A move that changes a session is work, or does nothing, if that is so of the change of
the session that is there. -/
theorem works_change {f : Session → Session}
    (hput : ∀ s, h.sessions[i]? = some s → h.put i (f s) = h ∨ Works h m (h.put i (f s))) :
    h.change i f = h ∨ Works h m (h.change i f) := by
  cases hs : h.sessions[i]? with
  | none => exact .inl (change_of_none hs f)
  | some s =>
    rw [change_of_some hs]
    exact hput s hs

/-- An internal move is work, or there is nothing to do. -/
theorem works_step (hm : m.isInternal) : h.step m = h ∨ Works h m (h.step m) := by
  cases m with
  | notice i =>
    refine works_change fun s hs => ?_
    split
    · rename_i hnotice
      exact .inr (.heed hs hnotice.1 hnotice.2)
    · exact .inl (put_self hs)
  | proceed i =>
    rw [step, atSession]
    split
    · rename_i s hs
      exact works_proceed hs
    · exact .inl rfl
  | startPing i =>
    rw [step, atSession]
    split
    · rename_i s hs
      rw [startPing]
      split
      · rename_i hdue
        exact .inr (.ping hs hdue.1 hdue.2)
      · exact .inl rfl
    · exact .inl rfl
  | finishPing i => exact works_change fun s hs => works_finishPing hs
  | stopPinging i =>
    refine works_change fun s hs => ?_
    split
    · rename_i hclosed
      by_cases hstopped : s.pinging = .stopped
      · refine .inl ?_
        rw [← hstopped]
        exact put_self hs
      · exact .inr (.stop hs hclosed hstopped)
    · exact .inl (put_self hs)
  | deliver k =>
    rw [step]
    split
    · rename_i c hc
      exact .inr (works_deliver hc)
    · exact .inl rfl
  | connect | receive | trigger | socket | setClock | pass | shutDown => cases hm

/-- Work is done by the move that is made for it. -/
theorem Works.step_eq (hw : Works h m h') : h.step m = h' := by
  cases hw with
  | heed hs hreading hends =>
    rw [step, change_of_some hs, if_pos ⟨hreading, hends⟩]
  | giveUp hs hreading hrefuses => simp [step, atSession, hs, proceed, hreading, hrefuses]
  | answer hs hreading htakes => simp [step, atSession, hs, proceed, hreading, htakes]
  | present hs hreading | judge hs hreading | join hs hreading | leave hs hreading
  | withdraw hs hreading => simp [step, atSession, hs, proceed, hreading]
  | part hs hreading hstopped => simp [step, atSession, hs, proceed, hreading, hstopped]
  | ping hs hresting hdue => simp [step, atSession, hs, startPing, hresting, hdue]
  | stall hs hsending hstalls =>
    rw [step, change_of_some hs, finishPing, if_pos hsending, if_pos hstalls]
  | fail hs hsending hflows hrefuses =>
    rw [step, change_of_some hs, finishPing, if_pos hsending, if_neg (by simp [hflows]),
      if_pos hrefuses]
  | rest hs hsending hflows htakes =>
    rw [step, change_of_some hs, finishPing, if_pos hsending, if_neg (by simp [hflows]),
      if_neg (by simp [htakes])]
  | stop hs hclosed _ => rw [step, change_of_some hs, if_pos hclosed]
  | look hc hstage | expire hc hstage | close hc hstage | dismiss hc hstage =>
    simp [step, hc, deliver, hstage]
  | write hc hstage htakes => simp [step, hc, deliver, hstage, htakes]
  | refuse hc hstage hrefuses => simp [step, hc, deliver, hstage, hrefuses]

end Hall

end WaitingRoom
