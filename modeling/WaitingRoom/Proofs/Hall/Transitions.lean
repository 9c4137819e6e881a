import WaitingRoom.Hall.Moves
import WaitingRoom.Proofs.Subscriptions

/-!
# What a move can do

Every step of a hall is one of a few transitions, each with the condition on which it is
taken. What is proved of runs is read off these, part by part: where sessions,
subscriptions, deliveries and outputs after a move come from, and what becomes of those
before it.
-/

namespace WaitingRoom

namespace Hall

/-- What a move can do to a hall. A move that does not apply does nothing. -/
inductive Transition (h : Hall) : Move → Hall → Prop
  | idle (m : Move) : Transition h m h
  | connect (connection : String) : Transition h (.connect connection) (h.connect connection)
  | hear {i : Nat} {s : Session} (signal : Signal) (hs : h.sessions[i]? = some s)
      (hreading : s.reading = .waiting) :
      Transition h (.receive i signal) (h.put i { s with reading := Session.respond signal })
  | heed {i : Nat} {s : Session} (hs : h.sessions[i]? = some s) (hreading : s.reading = .waiting) :
      Transition h (.notice i) (h.put i { s with reading := .leaving })
  | giveUp {i : Nat} {s : Session} {frame : Frame} (hs : h.sessions[i]? = some s)
      (hreading : s.reading = .answering frame) :
      Transition h (.proceed i) (h.put i { s with reading := .leaving })
  | answer {i : Nat} {s : Session} {frame : Frame} (hs : h.sessions[i]? = some s)
      (hreading : s.reading = .answering frame) :
      Transition h (.proceed i)
        ((h.put i { s with reading := .waiting }).emit (.frame i frame .answer))
  | present {i : Nat} {s : Session} {credential : String} (hs : h.sessions[i]? = some s)
      (hreading : s.reading = .presented credential) :
      Transition h (.proceed i)
        ((h.withdraw s.connection).put i { s with reading := .checking credential })
  | judge {i : Nat} {s : Session} {credential : String} (hs : h.sessions[i]? = some s)
      (hreading : s.reading = .checking credential) :
      Transition h (.proceed i)
        (h.put i { s with reading := Session.judge h.check h.clock credential })
  | join {i : Nat} {s : Session} {token : Token} (hs : h.sessions[i]? = some s)
      (hreading : s.reading = .joining token) :
      Transition h (.proceed i)
        ({ h with
            subscriptions := h.subscriptions.subscribe s.connection token.userId ⟨i, token⟩ }.put i
          { s with reading := .answering .authOk })
  | leave {i : Nat} {s : Session} (hs : h.sessions[i]? = some s) (hreading : s.reading = .leaving) :
      Transition h (.proceed i) (h.put i { s with closed := true, reading := .withdrawing })
  | withdraw {i : Nat} {s : Session} (hs : h.sessions[i]? = some s)
      (hreading : s.reading = .withdrawing) :
      Transition h (.proceed i) ((h.withdraw s.connection).put i { s with reading := .parting })
  | part {i : Nat} {s : Session} (hs : h.sessions[i]? = some s) (hreading : s.reading = .parting) :
      Transition h (.proceed i) ((h.put i { s with reading := .done }).emit (.goodbye i))
  | ping {i : Nat} {s : Session} (pingAt : Nat) (hs : h.sessions[i]? = some s) :
      Transition h (.startPing i) ((h.put i { s with pinging := .sending, pingAt }).emit (.ping i))
  | tend {i : Nat} {s s' : Session} (m : Move) (hs : h.sessions[i]? = some s)
      (hconnection : s'.connection = s.connection) (hreading : s'.reading = s.reading)
      (hclosed : s.closed = true → s'.closed = true) : Transition h m (h.put i s')
  | trigger (user : String) (event : Event) :
      Transition h (.trigger user event) (h.trigger user event)
  | look {k : Nat} {c : Courier} (hc : h.couriers[k]? = some c) (hstage : c.stage = .begun) :
      Transition h (.deliver k) (h.putCourier k { c with
        stage := if c.delivery.target.reach.token.isExpired h.clock then .expired
          else .writing (.ofEvent c.delivery.event) })
  | expire {k : Nat} {c : Courier} (hc : h.couriers[k]? = some c) (hstage : c.stage = .expired) :
      Transition h (.deliver k) ((h.withdraw c.delivery.target.connection).putCourier k
        { c with stage := .writing .authRequest })
  | write {k : Nat} {c : Courier} {frame : Frame} (hc : h.couriers[k]? = some c)
      (hstage : c.stage = .writing frame) :
      Transition h (.deliver k)
        ((h.dismiss k).emit (.frame c.delivery.target.reach.session frame (.event c.number)))
  | refuse {k : Nat} {c : Courier} {frame : Frame} (hc : h.couriers[k]? = some c)
      (hstage : c.stage = .writing frame) :
      Transition h (.deliver k) (h.putCourier k { c with stage := .refused })
  | close {k : Nat} {c : Courier} (hc : h.couriers[k]? = some c) (hstage : c.stage = .refused) :
      Transition h (.deliver k)
        ((h.change c.delivery.target.reach.session fun s => { s with closed := true }).putCourier k
          { c with stage := .withdrawing })
  | dismiss {k : Nat} {c : Courier} (hc : h.couriers[k]? = some c)
      (hstage : c.stage = .withdrawing) :
      Transition h (.deliver k) ((h.withdraw c.delivery.target.connection).dismiss k)
  | setClock (time : Time.Instant) : Transition h (.setClock time) { h with clock := time }
  | pass (millis : Nat) : Transition h (.pass millis) { h with elapsed := h.elapsed + millis }
  | shutDown : Transition h .shutDown { h with shuttingDown := true }

variable {h h' : Hall} {m : Move} {i : Nat} {s : Session}

/-! ## Every step is a transition -/

/-- What changes a session changes nothing if there is no such session. -/
theorem change_of_none (hs : h.sessions[i]? = none) (f : Session → Session) :
    h.change i f = h := by
  unfold change
  rw [List.modify_eq_self (List.getElem?_eq_none_iff.mp hs)]

/-- What changes a session puts another one in its place. -/
theorem change_of_some (hs : h.sessions[i]? = some s) (f : Session → Session) :
    h.change i f = h.put i (f s) := by
  have hsessions : h.sessions.modify i f = h.sessions.set i (f s) := by
    apply List.ext_getElem?
    intro j
    rw [List.getElem?_modify, List.getElem?_set']
    by_cases hij : i = j
    · subst hij
      simp [hs]
    · simp [hij]
  unfold change put
  rw [hsessions]

/-- A change of a session is a transition if it is one for the session that is there. -/
theorem transition_change {f : Session → Session}
    (hput : ∀ s, h.sessions[i]? = some s → Transition h m (h.put i (f s))) :
    Transition h m (h.change i f) := by
  cases hs : h.sessions[i]? with
  | none =>
    rw [change_of_none hs]
    exact .idle m
  | some s =>
    rw [change_of_some hs]
    exact hput s hs

/-- A step of a session is a transition if it is one for the session that is there. -/
theorem transition_atSession {f : Session → Hall}
    (hstep : ∀ s, h.sessions[i]? = some s → Transition h m (f s)) :
    Transition h m (h.atSession i f) := by
  unfold atSession
  split
  · rename_i s hs
    exact hstep s hs
  · exact .idle m

/-- What becomes of a ping may close the session, and nothing else that is of interest
here. -/
theorem finishPing_keeps (s : Session) :
    (finishPing s).connection = s.connection ∧ (finishPing s).reading = s.reading ∧
      (s.closed = true → (finishPing s).closed = true) := by
  unfold finishPing
  by_cases hsending : s.pinging = .sending
  · rw [if_pos hsending]
    by_cases hstalls : s.socket.stallsPings = true
    · rw [if_pos hstalls]
      exact ⟨rfl, rfl, id⟩
    · rw [if_neg hstalls]
      by_cases hrefuses : s.socket.refusesPings = true
      · rw [if_pos hrefuses]
        exact ⟨rfl, rfl, fun _ => rfl⟩
      · rw [if_neg hrefuses]
        exact ⟨rfl, rfl, id⟩
  · rw [if_neg hsending]
    exact ⟨rfl, rfl, id⟩

/-- The next step of the reading of a session is a transition. -/
theorem transition_proceed (hs : h.sessions[i]? = some s) :
    Transition h (.proceed i) (h.proceed i s) := by
  unfold proceed
  cases hreading : s.reading with
  | waiting => exact .idle _
  | answering frame =>
    simp only
    split
    · exact .giveUp hs hreading
    · exact .answer hs hreading
  | presented credential => exact .present hs hreading
  | checking credential => exact .judge hs hreading
  | joining token => exact .join hs hreading
  | leaving => exact .leave hs hreading
  | withdrawing => exact .withdraw hs hreading
  | parting =>
    simp only
    split
    · exact .part hs hreading
    · exact .idle _
  | done => exact .idle _

/-- The next step of a delivery is a transition. -/
theorem transition_deliver {k : Nat} {c : Courier} (hc : h.couriers[k]? = some c) :
    Transition h (.deliver k) (h.deliver k c) := by
  unfold deliver
  cases hstage : c.stage with
  | begun => exact .look hc hstage
  | expired => exact .expire hc hstage
  | writing frame =>
    simp only
    split
    · exact .write hc hstage
    · exact .refuse hc hstage
  | refused => exact .close hc hstage
  | withdrawing => exact .dismiss hc hstage

/-- Every step is a transition. -/
theorem transition_step (h : Hall) (m : Move) : Transition h m (h.step m) := by
  cases m with
  | connect connection => exact .connect connection
  | receive i signal =>
    refine transition_change fun s hs => ?_
    split
    · rename_i hreading
      exact .hear signal hs hreading
    · exact .tend _ hs rfl rfl id
  | notice i =>
    refine transition_change fun s hs => ?_
    split
    · rename_i hnotice
      exact .heed hs hnotice.1
    · exact .tend _ hs rfl rfl id
  | proceed i => exact transition_atSession fun s hs => transition_proceed hs
  | startPing i =>
    refine transition_atSession fun s hs => ?_
    unfold startPing
    split
    · exact .ping _ hs
    · exact .idle _
  | finishPing i =>
    refine transition_change fun s hs => ?_
    obtain ⟨hconnection, hreading, hclosed⟩ := finishPing_keeps s
    exact .tend _ hs hconnection hreading hclosed
  | stopPinging i =>
    refine transition_change fun s hs => ?_
    split
    · exact .tend _ hs rfl rfl id
    · exact .tend _ hs rfl rfl id
  | trigger user event => exact .trigger user event
  | deliver k =>
    rw [step]
    split
    · rename_i c hc
      exact transition_deliver hc
    · exact .idle _
  | socket i socket => exact transition_change fun s hs => .tend _ hs rfl rfl id
  | setClock time => exact .setClock time
  | pass millis => exact .pass millis
  | shutDown => exact .shutDown

/-! ## Sessions -/

/-- The session in the place where one was put is that session. -/
theorem eq_of_put {t : Session} (ht : (h.put i s).sessions[i]? = some t) : t = s := by
  rw [put, List.getElem?_set_self'] at ht
  obtain ⟨_, _, rfl⟩ := Option.map_eq_some_iff.mp ht
  rfl

/-- What holds of all sessions, and of one that is put in the place of another, holds of
all sessions afterwards. -/
theorem forall_put {P : Nat → Session → Prop}
    (hall : ∀ j s, h.sessions[j]? = some s → P j s) (hnew : P i s) :
    ∀ j t, (h.put i s).sessions[j]? = some t → P j t := by
  intro j t ht
  by_cases hij : i = j
  · subst hij
    rw [eq_of_put ht]
    exact hnew
  · exact hall j t (by rwa [put, List.getElem?_set_ne hij] at ht)

/-- What holds of all sessions, and of what they are changed to, holds of all sessions
afterwards. -/
theorem forall_change {P : Nat → Session → Prop} {f : Session → Session}
    (hall : ∀ j s, h.sessions[j]? = some s → P j s)
    (hnew : ∀ s, h.sessions[i]? = some s → P i (f s)) :
    ∀ j t, (h.change i f).sessions[j]? = some t → P j t := by
  cases hs : h.sessions[i]? with
  | none => rwa [change_of_none hs]
  | some s =>
    rw [change_of_some hs]
    exact forall_put hall (hnew s hs)

/-- What holds of all sessions, and of a new one, holds of all sessions afterwards. -/
theorem forall_connect {P : Nat → Session → Prop} {connection : String}
    (hall : ∀ j s, h.sessions[j]? = some s → P j s)
    (hnew : ∀ j s, s.reading = .waiting → s.closed = false → P j s) :
    ∀ j t, (h.connect connection).sessions[j]? = some t → P j t := by
  intro j t ht
  rw [connect, List.getElem?_append] at ht
  split at ht
  · exact hall j t ht
  · obtain rfl := List.mem_singleton.mp (List.mem_of_getElem? ht)
    exact hnew j _ rfl rfl

/-- A session that is put in the place of another of the same connection, closed if that
was, leaves every session with its connection, and closed if it was. -/
theorem put_keeps {t t' : Session} (ht : h.sessions[i]? = some t)
    (hconnection : t'.connection = t.connection) (hclosed : t.closed = true → t'.closed = true)
    {j : Nat} (hs : h.sessions[j]? = some s) :
    ∃ s', (h.put i t').sessions[j]? = some s' ∧ s'.connection = s.connection ∧
      (s.closed = true → s'.closed = true) := by
  by_cases hij : i = j
  · subst hij
    obtain rfl := Option.some.inj (hs.symm.trans ht)
    refine ⟨t', ?_, hconnection, hclosed⟩
    have hset : (h.sessions.set i t')[i]? = some t' := by
      rw [List.getElem?_set_self', ht]
      rfl
    exact hset
  · refine ⟨s, ?_, rfl, id⟩
    have hset : (h.sessions.set i t')[j]? = some s := by
      rw [List.getElem?_set_ne hij, hs]
    exact hset

/-- A session keeps its number and its connection in every move, and it never opens again
after it was closed. -/
theorem Transition.keeps_session (ht : Transition h m h') (hs : h.sessions[i]? = some s) :
    ∃ s', h'.sessions[i]? = some s' ∧ s'.connection = s.connection ∧
      (s.closed = true → s'.closed = true) := by
  cases ht with
  | connect connection =>
    refine ⟨s, ?_, rfl, id⟩
    exact (List.getElem?_append_left (List.getElem?_eq_some_iff.mp hs).1).trans hs
  | close hc hstage =>
    rename_i k c
    cases hother : h.sessions[c.delivery.target.reach.session]? with
    | none =>
      rw [change_of_none hother]
      exact ⟨s, hs, rfl, id⟩
    | some t =>
      rw [change_of_some hother]
      refine put_keeps hother ?_ ?_ hs
      · rfl
      · exact fun _ => rfl
  | leave hs₀ _ =>
    refine put_keeps hs₀ ?_ ?_ hs
    · rfl
    · exact fun _ => rfl
  | tend m hs₀ hconnection _ hclosed => exact put_keeps hs₀ hconnection hclosed hs
  | hear _ hs₀ _ | heed hs₀ _ | giveUp hs₀ _ | answer hs₀ _ | present hs₀ _ | judge hs₀ _
  | join hs₀ _ | withdraw hs₀ _ | part hs₀ _ | ping _ hs₀ =>
    refine put_keeps hs₀ ?_ ?_ hs
    · rfl
    · exact id
  | _ => exact ⟨s, hs, rfl, id⟩

/-! ## Subscriptions -/

/-- A subscription that is there after a move was there before, or a session joined. -/
theorem Transition.mem_entries (ht : Transition h m h') {e : Subscription Reach}
    (he : e ∈ h'.subscriptions.entries) :
    e ∈ h.subscriptions.entries ∨ ∃ i s token, m = .proceed i ∧ h.sessions[i]? = some s ∧
      s.reading = .joining token ∧ e = ⟨s.connection, token.userId, ⟨i, token⟩⟩ := by
  cases ht with
  | join hs hreading =>
    rcases Subscriptions.mem_subscribe.mp he with ⟨hkept, _⟩ | hnew
    · exact .inl hkept
    · exact .inr ⟨_, _, _, rfl, hs, hreading, hnew⟩
  | present | withdraw | expire | dismiss => exact .inl (Subscriptions.mem_unsubscribe.mp he).1
  | _ => exact .inl he

/-- Whether a move drops the subscription of a connection: a session of the connection does,
or a delivery to it. -/
inductive Drops (h : Hall) (connection : String) : Move → Prop
  | present {i : Nat} {s : Session} {credential : String} (hs : h.sessions[i]? = some s)
      (hconnection : s.connection = connection) (hreading : s.reading = .presented credential) :
      Drops h connection (.proceed i)
  | join {i : Nat} {s : Session} {token : Token} (hs : h.sessions[i]? = some s)
      (hconnection : s.connection = connection) (hreading : s.reading = .joining token) :
      Drops h connection (.proceed i)
  | withdraw {i : Nat} {s : Session} (hs : h.sessions[i]? = some s)
      (hconnection : s.connection = connection) (hreading : s.reading = .withdrawing) :
      Drops h connection (.proceed i)
  | expire {k : Nat} {c : Courier} (hc : h.couriers[k]? = some c)
      (hconnection : c.delivery.target.connection = connection) (hstage : c.stage = .expired) :
      Drops h connection (.deliver k)
  | dismiss {k : Nat} {c : Courier} (hc : h.couriers[k]? = some c)
      (hconnection : c.delivery.target.connection = connection)
      (hstage : c.stage = .withdrawing) : Drops h connection (.deliver k)

/-- A subscription is there after a move unless the move drops it. -/
theorem Transition.mem_entries_or_drops (ht : Transition h m h') {e : Subscription Reach}
    (he : e ∈ h.subscriptions.entries) :
    e ∈ h'.subscriptions.entries ∨ h.Drops e.connection m := by
  have hdrop : ∀ connection, e ∈ (h.subscriptions.unsubscribe connection).entries ∨
      connection = e.connection := by
    intro connection
    by_cases hconnection : connection = e.connection
    · exact .inr hconnection
    · exact .inl (Subscriptions.mem_unsubscribe.mpr ⟨he, Ne.symm hconnection⟩)
  cases ht with
  | present hs hreading => exact (hdrop _).imp_right fun hown => .present hs hown hreading
  | join hs hreading =>
    rcases hdrop _ with hkept | hown
    · exact .inl (List.mem_append_left _ hkept)
    · exact .inr (.join hs hown hreading)
  | withdraw hs hreading => exact (hdrop _).imp_right fun hown => .withdraw hs hown hreading
  | expire hc hstage => exact (hdrop _).imp_right fun hown => .expire hc hown hstage
  | dismiss hc hstage => exact (hdrop _).imp_right fun hown => .dismiss hc hown hstage
  | _ => exact .inl he

/-! ## Deliveries and outputs -/

/-- How a delivery can go on, given the clock. -/
inductive Advances (now : Time.Instant) (c : Courier) : Courier → Prop
  | look (hstage : c.stage = .begun) : Advances now c { c with
      stage := if c.delivery.target.reach.token.isExpired now then .expired
        else .writing (.ofEvent c.delivery.event) }
  | expire (hstage : c.stage = .expired) :
      Advances now c { c with stage := .writing .authRequest }
  | refuse {frame : Frame} (hstage : c.stage = .writing frame) :
      Advances now c { c with stage := .refused }
  | close (hstage : c.stage = .refused) : Advances now c { c with stage := .withdrawing }

/-- A delivery that is under way after a move was so before, was started by an event, or
has gone on. -/
theorem Transition.mem_couriers (ht : Transition h m h') {c' : Courier}
    (hc' : c' ∈ h'.couriers) :
    c' ∈ h.couriers ∨
      (∃ user event, m = .trigger user event ∧
        ∃ d ∈ h.subscriptions.trigger user event, c' = { number := h.events, delivery := d }) ∨
      ∃ k c, m = .deliver k ∧ h.couriers[k]? = some c ∧ Advances h.clock c c' := by
  cases ht with
  | trigger user event =>
    rcases List.mem_append.mp hc' with hkept | hnew
    · exact .inl hkept
    · obtain ⟨d, hd, rfl⟩ := List.mem_map.mp hnew
      exact .inr (.inl ⟨user, event, rfl, d, hd, rfl⟩)
  | look hc hstage =>
    rcases List.mem_or_eq_of_mem_set hc' with hkept | rfl
    · exact .inl hkept
    · exact .inr (.inr ⟨_, _, rfl, hc, .look hstage⟩)
  | expire hc hstage =>
    rcases List.mem_or_eq_of_mem_set hc' with hkept | rfl
    · exact .inl hkept
    · exact .inr (.inr ⟨_, _, rfl, hc, .expire hstage⟩)
  | refuse hc hstage =>
    rcases List.mem_or_eq_of_mem_set hc' with hkept | rfl
    · exact .inl hkept
    · exact .inr (.inr ⟨_, _, rfl, hc, .refuse hstage⟩)
  | close hc hstage =>
    rcases List.mem_or_eq_of_mem_set hc' with hkept | rfl
    · exact .inl hkept
    · exact .inr (.inr ⟨_, _, rfl, hc, .close hstage⟩)
  | write | dismiss => exact .inl (List.mem_of_mem_eraseIdx hc')
  | _ => exact .inl hc'

/-- What a move can write. -/
inductive Writes (h : Hall) : Move → Output → Prop
  | answer {i : Nat} {s : Session} {frame : Frame} (hs : h.sessions[i]? = some s)
      (hreading : s.reading = .answering frame) : Writes h (.proceed i) (.frame i frame .answer)
  | deliver {k : Nat} {c : Courier} {frame : Frame} (hc : h.couriers[k]? = some c)
      (hstage : c.stage = .writing frame) : Writes h (.deliver k)
        (.frame c.delivery.target.reach.session frame (.event c.number))
  | ping (i : Nat) : Writes h (.startPing i) (.ping i)
  | goodbye (i : Nat) : Writes h (.proceed i) (.goodbye i)

/-- An output that is there after a move was there before, or the move has written it. -/
theorem Transition.mem_outputs (ht : Transition h m h') {o : Output} (ho : o ∈ h'.outputs) :
    o ∈ h.outputs ∨ h.Writes m o := by
  cases ht with
  | answer hs hreading =>
    rcases List.mem_append.mp ho with hkept | hnew
    · exact .inl hkept
    · obtain rfl := List.mem_singleton.mp hnew
      exact .inr (.answer hs hreading)
  | write hc hstage =>
    rcases List.mem_append.mp ho with hkept | hnew
    · exact .inl hkept
    · obtain rfl := List.mem_singleton.mp hnew
      exact .inr (.deliver hc hstage)
  | part =>
    rcases List.mem_append.mp ho with hkept | hnew
    · exact .inl hkept
    · obtain rfl := List.mem_singleton.mp hnew
      exact .inr (.goodbye _)
  | ping =>
    rcases List.mem_append.mp ho with hkept | hnew
    · exact .inl hkept
    · obtain rfl := List.mem_singleton.mp hnew
      exact .inr (.ping _)
  | _ => exact .inl ho

end Hall

end WaitingRoom
