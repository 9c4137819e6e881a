import Mathlib.Data.List.Nodup
import Mathlib.Data.List.Perm.Subperm
import WaitingRoom.Proofs.Hall.History

/-!
# Deliveries

An event leads to one delivery for each subscription to the user's devices, a delivery
looks at the clock once, and it writes at most one frame. With what history accounts for,
this says who is told of which events.
-/

namespace WaitingRoom

/-- The event a delivery is about, and the session through which it goes. -/
def Courier.ticket (c : Courier) : Nat × Nat := (c.number, c.delivery.target.reach.session)

/-- The event on whose account an output was made, and the session through which it went. -/
def Output.ticket : Output → Option (Nat × Nat)
  | .frame i _ (.event number) => some (number, i)
  | _ => none

namespace Hall

/-- The tickets of the deliveries under way, and of those that have written a frame. -/
def tickets (h : Hall) : List (Nat × Nat) :=
  h.couriers.map Courier.ticket ++ h.outputs.filterMap Output.ticket

/-- Whether connections and deliveries are in order: no connection has two subscriptions,
subscriptions are reached through sessions of their connections, events are numbered, and
no ticket is given twice. -/
structure Orderly (h : Hall) : Prop where
  distinct : h.subscriptions.Distinct
  connected : ∀ e ∈ h.subscriptions.entries, ∃ s,
    h.sessions[e.reach.session]? = some s ∧ s.connection = e.connection
  numbered : ∀ t ∈ h.tickets, t.1 < h.events
  single : h.tickets.Nodup

variable {h h' : Hall} {m : Move} {moves : List Move} {k number : Nat} {d : Delivery Reach}

/-! ## Tickets -/

/-- A delivery that goes on keeps its ticket. -/
theorem tickets_putCourier {c c' : Courier} (hc : h.couriers[k]? = some c)
    (hticket : c'.ticket = c.ticket) : (h.putCourier k c').tickets = h.tickets := by
  obtain ⟨hk, rfl⟩ := List.getElem?_eq_some_iff.mp hc
  have hsame : (h.couriers.set k c').map Courier.ticket = h.couriers.map Courier.ticket := by
    rw [List.map_set, hticket, ← List.getElem_map Courier.ticket (h := by simpa using hk),
      List.set_getElem_self]
  exact congrArg (· ++ _) hsame

/-- A delivery that has written its frame leaves its ticket with the frame. -/
theorem tickets_dismiss_emit {c : Courier} {frame : Frame} (hc : h.couriers[k]? = some c) :
    ((h.dismiss k).emit
      (.frame c.delivery.target.reach.session frame (.event c.number))).tickets.Perm h.tickets := by
  obtain ⟨hk, rfl⟩ := List.getElem?_eq_some_iff.mp hc
  have herase := (List.getElem_cons_eraseIdx_perm hk).map Courier.ticket
  unfold tickets dismiss emit
  rw [List.filterMap_append, ← List.append_assoc]
  exact List.perm_append_comm.trans (herase.append_right _)

/-- An output on account of no event carries no ticket. -/
theorem tickets_emit {o : Output} (ho : o.ticket = none) : (h.emit o).tickets = h.tickets := by
  unfold tickets emit
  rw [List.filterMap_append, List.filterMap_cons_none ho, List.filterMap_nil, List.append_nil]

/-- A move that triggers no event gives no tickets and numbers no events. -/
theorem Transition.tickets_subperm (ht : Transition h m h') :
    (h'.events = h.events ∧ h'.tickets.Subperm h.tickets) ∨
      ∃ user event, h' = h.trigger user event := by
  cases ht with
  | trigger user event => exact .inr ⟨user, event, rfl⟩
  | @look _ c hc _ | @expire _ c hc _ | @refuse _ c _ hc _ | @close _ c hc _ =>
    refine .inl ⟨rfl, List.Perm.subperm (.of_eq ?_)⟩
    refine tickets_putCourier (c := c) ?_ ?_
    · exact hc
    · rfl
  | write hc _ => exact .inl ⟨rfl, (tickets_dismiss_emit hc).subperm⟩
  | @dismiss k c hc _ =>
    have herase := (List.eraseIdx_sublist h.couriers k).map Courier.ticket
    exact .inl ⟨rfl, (herase.append_right _).subperm⟩
  | answer | part | ping =>
    refine .inl ⟨rfl, List.Perm.subperm (.of_eq ?_)⟩
    exact tickets_emit rfl
  | _ => exact .inl ⟨rfl, .refl _⟩

/-- No move takes back the number of an event. -/
theorem Transition.events_le (ht : Transition h m h') : h.events ≤ h'.events := by
  rcases ht.tickets_subperm with ⟨hevents, _⟩ | ⟨user, event, rfl⟩
  · omega
  · exact Nat.le_succ h.events

/-- The tickets given when an event is triggered. -/
theorem tickets_trigger (h : Hall) (user : String) (event : Event) :
    (h.trigger user event).tickets.Perm
      ((h.subscriptions.targets user).map (fun e => (h.events, e.reach.session)) ++
        h.tickets) := by
  unfold tickets trigger Subscriptions.trigger
  rw [List.map_append, List.map_map, List.map_map, List.append_assoc]
  exact List.perm_append_comm_assoc _ _ _

/-! ## Order -/

/-- Subscriptions that are reached through the same session are the same. -/
theorem Orderly.eq_of_session (horder : h.Orderly) {e e' : Subscription Reach}
    (he : e ∈ h.subscriptions.entries) (he' : e' ∈ h.subscriptions.entries)
    (hsession : e.reach.session = e'.reach.session) : e = e' := by
  obtain ⟨s, hs, hconnection⟩ := horder.connected e he
  obtain ⟨s', hs', hconnection'⟩ := horder.connected e' he'
  rw [hsession] at hs
  obtain rfl := Option.some.inj (hs.symm.trans hs')
  exact List.inj_on_of_nodup_map horder.distinct he he' (hconnection.symm.trans hconnection')

/-- A hall that opens is in order. -/
theorem Orderly.opened (check : Validator) (clock : Time.Instant) (period : Nat) :
    (opened check clock period).Orderly := by
  constructor
  · exact .empty
  · intro e he
    cases he
  · intro t ht
    cases ht
  · exact List.nodup_nil

/-- Order is kept when an event is triggered: the number of the event is new, and the
subscriptions are reached through different sessions. -/
theorem Orderly.trigger (horder : h.Orderly) (user : String) (event : Event) :
    (h.trigger user event).Orderly := by
  have hperm := h.tickets_trigger user event
  refine ⟨horder.distinct, horder.connected, ?_, ?_⟩
  · intro t ht
    change t.1 < h.events + 1
    rcases List.mem_append.mp (hperm.mem_iff.mp ht) with hnew | hold
    · obtain ⟨e, _, rfl⟩ := List.mem_map.mp hnew
      exact Nat.lt_succ_self h.events
    · have hlt := horder.numbered t hold
      omega
  · refine hperm.nodup_iff.mpr (List.nodup_append.mpr ⟨?_, horder.single, ?_⟩)
    · refine List.Nodup.map_on ?_ ((List.Nodup.of_map _ horder.distinct).filter _)
      intro e he e' he' hticket
      have hsession := (Prod.mk.inj hticket).2
      exact horder.eq_of_session (List.mem_filter.mp he).1 (List.mem_filter.mp he').1 hsession
    · intro t hnew t' hold heq
      obtain ⟨e, _, rfl⟩ := List.mem_map.mp hnew
      have hlt := horder.numbered t' hold
      rw [← heq] at hlt
      exact Nat.lt_irrefl _ hlt

/-- No connection has two subscriptions after a move if none had before. -/
theorem Transition.distinct (ht : Transition h m h') (hdistinct : h.subscriptions.Distinct) :
    h'.subscriptions.Distinct := by
  cases ht with
  | join => exact hdistinct.subscribe _ _ _
  | present | withdraw | expire | dismiss => exact hdistinct.unsubscribe _
  | _ => exact hdistinct

/-- Every move keeps order. -/
theorem Orderly.step (horder : h.Orderly) (ht : Transition h m h') : h'.Orderly := by
  rcases ht.tickets_subperm with ⟨hevents, htickets⟩ | ⟨user, event, rfl⟩
  · refine ⟨ht.distinct horder.distinct, ?_, ?_, ?_⟩
    · intro e he
      rcases ht.mem_entries he with hkept | ⟨i, s, token, _, hs, _, rfl⟩
      · obtain ⟨s, hs, hconnection⟩ := horder.connected e hkept
        obtain ⟨s', hs', hconnection', _⟩ := ht.keeps_session hs
        exact ⟨s', hs', hconnection'.trans hconnection⟩
      · obtain ⟨s', hs', hconnection', _⟩ := ht.keeps_session hs
        exact ⟨s', hs', hconnection'⟩
    · intro t hmem
      rw [hevents]
      exact horder.numbered t (htickets.subset hmem)
    · obtain ⟨tickets, hperm, hsub⟩ := htickets
      exact hperm.nodup_iff.mp (horder.single.sublist hsub)
  · exact horder.trigger user event

/-- A hall is in order at any time after it opened. -/
theorem orderly_run (check : Validator) (clock : Time.Instant) (period : Nat)
    (moves : List Move) : ((opened check clock period).run moves).Orderly := by
  induction moves using List.reverseRecOn with
  | nil => exact .opened check clock period
  | append_singleton moves m ih =>
    rw [run_append_singleton]
    exact ih.step (transition_step _ m)

/-! ## Once -/

/-- Events that happened in a run are still numbered when more has happened. -/
theorem events_le_run (h : Hall) (moves : List Move) : h.events ≤ (h.run moves).events := by
  induction moves using List.reverseRecOn with
  | nil => exact Nat.le_refl _
  | append_singleton moves m ih =>
    rw [run_append_singleton]
    exact Nat.le_trans ih (transition_step _ m).events_le

/-- The number of an event that was triggered is taken in every longer run. -/
theorem events_lt_run (h : Hall) (past rest : List Move) (user : String) (event : Event) :
    (h.run past).events < (h.run (past ++ .trigger user event :: rest)).events := by
  rw [run_append]
  exact events_le_run ((h.run past).trigger user event) rest

/-- An event that was triggered has a number that is taken. -/
theorem Triggered.lt_events (htriggered : h.Triggered moves number d) :
    number < (h.run moves).events := by
  obtain ⟨past, _, rest, rfl, rfl, rfl, _⟩ := htriggered
  exact events_lt_run h past rest _ _

/-- No two events have the same number. -/
theorem trigger_unique {past past' rest rest' : List Move} {user user' : String}
    {event event' : Event}
    (hmoves : past ++ .trigger user event :: rest = past' ++ .trigger user' event' :: rest')
    (hnumber : (h.run past).events = (h.run past').events) :
    past = past' ∧ user = user' ∧ event = event' := by
  have hfirst : Came (past ++ .trigger user event :: rest)
      fun p m => p = past ∧ m = .trigger user event := ⟨past, _, rest, rfl, rfl, rfl⟩
  have hsecond : Came (past ++ .trigger user event :: rest)
      fun p m => p = past' ∧ m = .trigger user' event' := ⟨past', _, rest', hmoves, rfl, rfl⟩
  rcases hfirst.compare hsecond with ⟨_, _, ⟨rfl, rfl⟩, hpast, hmove⟩ |
    ⟨_, _, ⟨q, _, between, rfl, hq, rfl⟩, hpast, _⟩ |
    ⟨_, _, ⟨q, _, between, rfl, hq, rfl⟩, hpast, _⟩
  · cases hmove
    exact ⟨hpast, rfl, rfl⟩
  · have hlt := events_lt_run h q between user event
    rw [hpast, hq, hnumber] at hlt
    exact absurd hlt (Nat.lt_irrefl _)
  · have hlt := events_lt_run h q between user' event'
    rw [hpast, hq, hnumber] at hlt
    exact absurd hlt (Nat.lt_irrefl _)

/-- A delivery that goes on has looked at the clock. -/
theorem Advances.ne_begun {now : Time.Instant} {c c' : Courier} (hadvances : Advances now c c') :
    c'.stage ≠ .begun := by
  cases hadvances with
  | look =>
    simp only
    split <;> exact nofun
  | _ => exact nofun

/-- A delivery that has yet to look at the clock after a move had yet to before, or its
event was triggered just now. -/
theorem Transition.begun_courier (ht : Transition h m h') {c : Courier} (hc : c ∈ h'.couriers)
    (hbegun : c.stage = .begun) : c ∈ h.couriers ∨ c.number = h.events := by
  rcases ht.mem_couriers hc with hkept | ⟨_, _, _, _, _, rfl⟩ | ⟨_, _, _, _, hadvances⟩
  · exact .inl hkept
  · exact .inr rfl
  · exact absurd hbegun hadvances.ne_begun

/-- No two deliveries under way have the same ticket. -/
theorem Orderly.eq_of_ticket (horder : h.Orderly) {j : Nat} {c c' : Courier}
    (hc : h.couriers[j]? = some c) (hc' : h.couriers[k]? = some c')
    (hticket : c.ticket = c'.ticket) : j = k := by
  have hnodup := (List.nodup_append.mp horder.single).1
  obtain ⟨hj, rfl⟩ := List.getElem?_eq_some_iff.mp hc
  obtain ⟨hk, rfl⟩ := List.getElem?_eq_some_iff.mp hc'
  have hlength : j < (h.couriers.map Courier.ticket).length := by simpa using hj
  apply (List.getElem?_inj hlength hnodup).mp
  rw [List.getElem?_map, List.getElem?_map, hc, hc']
  exact congrArg some hticket

/-- A delivery that looks at the clock goes on in its place. -/
theorem step_look {c : Courier} (hc : h.couriers[k]? = some c) (hbegun : c.stage = .begun) :
    ∃ c', h.step (.deliver k) = h.putCourier k c' ∧ Advances h.clock c c' := by
  refine ⟨_, ?_, .look hbegun⟩
  rw [step, hc]
  simp only [deliver, hbegun]

/-- A delivery that has looked at the clock is about an event that was triggered. -/
theorem Looked.triggered {expired : Bool} (hlooked : h.Looked moves number d expired) :
    h.Triggered moves number d := by
  obtain ⟨past, m, rest, rfl, _, _, _, _, htriggered⟩ := hlooked
  exact Came.append htriggered _

variable {check : Validator} {clock : Time.Instant} {period : Nat}

/-- A delivery that has looked at the clock is not among those that have yet to. -/
theorem Looked.not_begun {expired : Bool}
    (hlooked : (opened check clock period).Looked moves number d expired) :
    ∀ c ∈ ((opened check clock period).run moves).couriers, c.stage = .begun →
      c.ticket ≠ (number, d.target.reach.session) := by
  induction moves using List.reverseRecOn with
  | nil =>
    intro c hc
    cases hc
  | append_singleton moves m ih =>
    rw [run_append_singleton]
    intro c hc hbegun hticket
    have ht := transition_step ((opened check clock period).run moves) m
    rcases Came.of_append_singleton hlooked with hold | ⟨k, rfl, hcourier, _, _⟩
    · have hlt := (Looked.triggered hold).lt_events
      rcases ht.begun_courier hc hbegun with hkept | hnew
      · exact ih hold c hkept hbegun hticket
      · have hnumber : c.number = number := (Prod.mk.inj hticket).1
        omega
    · have horder := orderly_run check clock period moves
      obtain ⟨c', hstep, hadvances⟩ := step_look hcourier rfl
      rw [hstep] at hc
      obtain ⟨j, hj⟩ := List.mem_iff_getElem?.mp hc
      by_cases hjk : k = j
      · subst hjk
        rw [putCourier, List.getElem?_set_self', hcourier] at hj
        cases hj
        exact hadvances.ne_begun hbegun
      · rw [putCourier, List.getElem?_set_ne hjk] at hj
        exact hjk (horder.eq_of_ticket hj hcourier hticket).symm

/-- A delivery looks at the clock once, so it cannot find both that the token has run out
and that it has not. -/
theorem Looked.unique {expired expired' : Bool}
    (hlooked : (opened check clock period).Looked moves number d expired)
    (hlooked' : (opened check clock period).Looked moves number d expired') :
    expired = expired' := by
  rcases Came.compare hlooked hlooked' with ⟨past, m, hlook, hlook'⟩ |
    ⟨past, m, hearlier, _, _, hcourier, _⟩ | ⟨past, m, hearlier, _, _, hcourier, _⟩
  · obtain ⟨_, _, _, hexpired, _⟩ := hlook
    obtain ⟨_, _, _, hexpired', _⟩ := hlook'
    exact hexpired.symm.trans hexpired'
  · exact absurd rfl (Looked.not_begun hearlier _ (List.mem_of_getElem? hcourier) rfl)
  · exact absurd rfl (Looked.not_begun hearlier _ (List.mem_of_getElem? hcourier) rfl)

/-! ## Who is told of what -/

/-- A frame that was written was due. -/
theorem Written.due {frame : Frame} (hwritten : h.Written moves number d frame) :
    h.Due moves number d frame := by
  obtain ⟨past, m, rest, rfl, _, _, _, hdue⟩ := hwritten
  rcases hdue with ⟨hframe, hlooked⟩ | ⟨hframe, hlooked⟩
  · exact .inl ⟨hframe, Came.append hlooked _⟩
  · exact .inr ⟨hframe, Came.append hlooked _⟩

/-- An event leads to deliveries to sessions that have accepted a token. -/
theorem Triggered.accepted (htriggered : h.Triggered moves number d) :
    h.Accepted moves d.target.reach.session d.target.reach.token := by
  obtain ⟨past, m, rest, rfl, _, _, _, hjoined⟩ := htriggered
  obtain ⟨past, m', between, rfl, s, _, _, _, _, _, haccepted⟩ := hjoined
  rw [List.append_assoc]
  exact Came.append haccepted _

/-- The event that led to a delivery was triggered once, when the subscription was there. -/
theorem Triggered.exists_unique (htriggered : h.Triggered moves number d) :
    ∃ past rest, moves = past ++ .trigger d.target.user d.event :: rest ∧
      (h.run past).events = number ∧ d.target ∈ (h.run past).subscriptions.entries ∧
      h.Joined past d.target ∧
      ∀ past' user event rest', moves = past' ++ .trigger user event :: rest' →
        (h.run past').events = number → past' = past := by
  obtain ⟨past, m, rest, rfl, rfl, hnumber, htarget, hjoined⟩ := htriggered
  refine ⟨past, rest, rfl, hnumber, htarget, hjoined, ?_⟩
  intro past' user event rest' hmoves hnumber'
  exact (trigger_unique hmoves (hnumber.trans hnumber'.symm)).1.symm

/-- A frame on account of an event tells of the event if its delivery found that the token
had not run out; it asks for a new credential if the delivery found that it had. -/
theorem due_exclusive {frame : Frame}
    (hdue : (opened check clock period).Due moves number d frame) :
    (frame = .ofEvent d.event ∧ (opened check clock period).Looked moves number d false ∧
        ¬ (opened check clock period).Looked moves number d true) ∨
      (frame = .authRequest ∧ (opened check clock period).Looked moves number d true ∧
        ¬ (opened check clock period).Looked moves number d false) := by
  rcases hdue with ⟨hframe, hlooked⟩ | ⟨hframe, hlooked⟩
  · refine .inl ⟨hframe, hlooked, fun hother => ?_⟩
    cases hlooked.unique hother
  · refine .inr ⟨hframe, hlooked, fun hother => ?_⟩
    cases hlooked.unique hother

/-- **Confidentiality.** At any time after a hall opened, whatever moves were made: a frame
that tells of an event was written, for one event that was triggered, by a delivery to a
subscription that was there; the subscription was made by the session that wrote the
frame, to the devices of the user whom the event concerned, with a token that it had
accepted and that had not run out when the delivery looked at the clock. A frame on
account of an event is a request for a new credential instead if the token had run out.
No two frames were written on account of the same event through the same session. And no
session that never accepted a token wrote a frame that tells of an event. -/
theorem updates_reach_subscribers_only (check : Validator) (clock : Time.Instant) (period : Nat)
    (moves : List Move) :
    let h := opened check clock period
    let outputs := (h.run moves).outputs
    (∀ i frame cause, .frame i frame cause ∈ outputs → frame.kind.isUpdate = true →
      ∃ number d, cause = .event number ∧ frame = .ofEvent d.event ∧
        d.target.reach.session = i ∧ h.Written moves number d frame ∧
        h.Looked moves number d false ∧
        ∃ past rest, moves = past ++ .trigger d.target.user d.event :: rest ∧
          (h.run past).events = number ∧ d.target ∈ (h.run past).subscriptions.entries ∧
          h.Joined past d.target ∧
          ∀ past' user event rest', moves = past' ++ .trigger user event :: rest' →
            (h.run past').events = number → past' = past) ∧
    (∀ i frame number, .frame i frame (.event number) ∈ outputs →
      ∃ d, d.target.reach.session = i ∧ h.Written moves number d frame ∧
        ((frame = .ofEvent d.event ∧ h.Looked moves number d false ∧
            ¬ h.Looked moves number d true) ∨
          (frame = .authRequest ∧ h.Looked moves number d true ∧
            ¬ h.Looked moves number d false))) ∧
    (outputs.filterMap Output.ticket).Nodup ∧
    (∀ i, (∀ token, ¬ h.Accepted moves i token) →
      ∀ frame cause, .frame i frame cause ∈ outputs → frame.kind.isUpdate = false) := by
  intro h outputs
  have hacc := accounted_opened check clock period moves
  have hupdate : ∀ i frame cause, .frame i frame cause ∈ outputs →
      frame.kind.isUpdate = true → ∃ number d, cause = .event number ∧
        frame = .ofEvent d.event ∧ d.target.reach.session = i ∧
        h.Written moves number d frame ∧ h.Looked moves number d false := by
    intro i frame cause hmem hkind
    have hframe := hacc.outputs _ hmem
    cases cause with
    | answer => cases hkind.symm.trans hframe
    | event number =>
      obtain ⟨d, hsession, hwritten⟩ := hframe
      rcases hwritten.due with ⟨htells, hlooked⟩ | ⟨rfl, _⟩
      · exact ⟨number, d, rfl, htells, hsession, hwritten, hlooked⟩
      · cases hkind
  refine ⟨?_, ?_, ?_, ?_⟩
  · intro i frame cause hmem hkind
    obtain ⟨number, d, hcause, htells, hsession, hwritten, hlooked⟩ :=
      hupdate i frame cause hmem hkind
    exact ⟨number, d, hcause, htells, hsession, hwritten, hlooked, hlooked.triggered.exists_unique⟩
  · intro i frame number hmem
    obtain ⟨d, hsession, hwritten⟩ := hacc.outputs _ hmem
    exact ⟨d, hsession, hwritten, due_exclusive hwritten.due⟩
  · exact (List.nodup_append.mp (orderly_run check clock period moves).single).2.1
  · intro i hnever frame cause hmem
    by_contra hkind
    obtain ⟨number, d, _, _, rfl, _, hlooked⟩ := hupdate i frame cause hmem (by simpa using hkind)
    exact hnever _ hlooked.triggered.accepted

end Hall

end WaitingRoom
