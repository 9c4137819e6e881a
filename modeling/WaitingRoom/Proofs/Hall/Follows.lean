import WaitingRoom.Proofs.Hall.Ownership
import WaitingRoom.Proofs.Hall.Rest
import WaitingRoom.Proofs.Hall.Seats

/-!
# Halls that follow their lines

A hall follows a switchboard as long as every seat is on its way to its line. Work is done
at one seat at a time and leaves the others as they are, so a hall that follows a
switchboard does so still when work has been done, whoever has done it.
-/

namespace WaitingRoom

/-- The frame that an output writes to the session with this number, if it does. -/
def Output.frameTo (i : Nat) : Output → Option Frame
  | .frame j f _ => if j = i then some f else none
  | .ping _ | .goodbye _ => none

/-- A place in a list, what is there, and what becomes of the list when that is replaced or
goes. -/
theorem exists_split_at {α : Type} {l : List α} {k : Nat} {a : α} (ha : l[k]? = some a) :
    ∃ before after, l = before ++ a :: after ∧ (∀ b, l.set k b = before ++ b :: after) ∧
      l.eraseIdx k = before ++ after := by
  induction l generalizing k with
  | nil => cases ha
  | cons c rest ih =>
    cases k with
    | zero =>
      obtain rfl : c = a := Option.some.inj ha
      exact ⟨[], rest, rfl, fun _ => rfl, rfl⟩
    | succ k =>
      obtain ⟨before, after, hrest, hset, herase⟩ := ih ha
      refine ⟨c :: before, after, congrArg _ hrest, fun b => ?_, congrArg _ herase⟩
      exact congrArg _ (hset b)

/-- What is chosen from a list is chosen from neither side of the one thing that is. -/
theorem filter_eq_nil_of_single {α : Type} {before after : List α} {a : α} {p : α → Bool}
    (hsingle : (before ++ a :: after).filter p = [a]) (ha : p a = true) :
    before.filter p = [] ∧ after.filter p = [] := by
  rw [List.filter_append, List.filter_cons_of_pos ha] at hsingle
  have hlength := congrArg List.length hsingle
  simp only [List.length_append, List.length_cons, List.length_nil] at hlength
  exact ⟨List.eq_nil_of_length_eq_zero (by omega), List.eq_nil_of_length_eq_zero (by omega)⟩

namespace Hall

/-- The deliveries on their way to the session with this number. -/
def couriersTo (h : Hall) (i : Nat) : List Courier :=
  h.couriers.filter fun c => c.delivery.target.reach.session == i

/-- The frames written to the session with this number. -/
def framesTo (h : Hall) (i : Nat) : List Frame := h.outputs.filterMap (Output.frameTo i)

/-- The seat of a session. -/
def seat (h : Hall) (i : Nat) (s : Session) : Seat where
  session := s
  entries := h.entriesOf i
  couriers := h.couriersTo i
  frames := h.framesTo i

variable {h h' : Hall} {b : Switchboard} {m : Move} {i j k : Nat} {s : Session} {c : Courier}

/-- Which deliveries are on their way to a session. -/
theorem mem_couriersTo :
    c ∈ h.couriersTo i ↔ c ∈ h.couriers ∧ c.delivery.target.reach.session = i := by
  rw [couriersTo, List.mem_filter, beq_iff_eq]

/-- Through a session that cannot be subscribed nobody is. -/
theorem Consistent.entriesOf_eq_nil (hcons : h.Consistent) (hs : h.sessions[i]? = some s)
    (hcannot : s.reading.canBeSubscribed = false) : h.entriesOf i = [] := by
  refine List.eq_nil_iff_forall_not_mem.mpr fun e he => ?_
  obtain ⟨hmem, rfl⟩ := mem_entriesOf.mp he
  cases hcannot.symm.trans (hcons.held e hmem s hs)

/-! ## What a move changes of a seat -/

/-- A session that is put in its own place leaves the sessions as they were. -/
theorem sessions_eq_set (hs : h.sessions[i]? = some s) : h.sessions = h.sessions.set i s :=
  (congrArg Hall.sessions (put_self hs)).symm

/-- A frame is written to one session. -/
theorem framesTo_emit (h : Hall) (i j : Nat) (frame : Frame) (cause : Cause) :
    (h.emit (.frame i frame cause)).framesTo j =
      if i = j then h.framesTo j ++ [frame] else h.framesTo j := by
  unfold framesTo emit
  rw [List.filterMap_append]
  split
  · rename_i hij
    simp [Output.frameTo, hij]
  · rename_i hij
    simp [Output.frameTo, hij]

/-- A connection takes frames as its socket does. -/
theorem takesFrames_eq (hs : h.sessions[i]? = some s) :
    h.takesFrames i = !s.socket.refusesFrames := by
  unfold takesFrames
  rw [hs]

/-- Deliveries to other sessions are as they were when one has gone on. -/
theorem couriersTo_putCourier_of_ne (hc : h.couriers[k]? = some c) (next : DeliveryStage)
    (hne : c.delivery.target.reach.session ≠ j) :
    (h.putCourier k { c with stage := next }).couriersTo j = h.couriersTo j := by
  obtain ⟨before, after, hall, hset, _⟩ := exists_split_at hc
  unfold couriersTo putCourier
  simp only
  rw [hset, hall]
  simp [hne]

/-- The only delivery to a session has gone on. -/
theorem couriersTo_putCourier (hc : h.couriers[k]? = some c) (next : DeliveryStage)
    (hsingle : h.couriersTo c.delivery.target.reach.session = [c]) :
    (h.putCourier k { c with stage := next }).couriersTo c.delivery.target.reach.session =
      [{ c with stage := next }] := by
  obtain ⟨before, after, hall, hset, _⟩ := exists_split_at hc
  unfold couriersTo at hsingle ⊢
  rw [hall] at hsingle
  obtain ⟨hbefore, hafter⟩ := filter_eq_nil_of_single hsingle (beq_self_eq_true _)
  unfold putCourier
  simp only
  rw [hset, List.filter_append, hbefore, List.filter_cons_of_pos (by simp), hafter,
    List.nil_append]

/-- Deliveries to other sessions are as they were when one is over. -/
theorem couriersTo_dismiss_of_ne (hc : h.couriers[k]? = some c)
    (hne : c.delivery.target.reach.session ≠ j) : (h.dismiss k).couriersTo j = h.couriersTo j := by
  obtain ⟨before, after, hall, _, herase⟩ := exists_split_at hc
  unfold couriersTo dismiss
  simp only
  rw [herase, hall]
  simp [hne]

/-- The only delivery to a session is over. -/
theorem couriersTo_dismiss (hc : h.couriers[k]? = some c)
    (hsingle : h.couriersTo c.delivery.target.reach.session = [c]) :
    (h.dismiss k).couriersTo c.delivery.target.reach.session = [] := by
  obtain ⟨before, after, hall, _, herase⟩ := exists_split_at hc
  unfold couriersTo at hsingle ⊢
  rw [hall] at hsingle
  obtain ⟨hbefore, hafter⟩ := filter_eq_nil_of_single hsingle (beq_self_eq_true _)
  unfold dismiss
  simp only
  rw [herase, List.filter_append, hbefore, hafter, List.nil_append]

/-- An event starts a delivery to a session for each subscription to the user's devices that
is reached through it. -/
theorem seat_trigger (h : Hall) (user : String) (event : Event) (i : Nat) (s : Session) :
    (h.trigger user event).seat i s = (h.seat i s).tell h.events user event := by
  have hcouriers : (h.trigger user event).couriersTo i =
      ((h.seat i s).tell h.events user event).couriers := by
    unfold couriersTo Seat.tell seat couriersTo entriesOf trigger Subscriptions.trigger
      Subscriptions.targets
    simp only [List.filter_append, List.map_map, List.filter_map, List.filter_filter,
      Function.comp_def, Bool.and_comm]
  rw [seat, hcouriers]
  rfl

/-- Through a session one connection is subscribed at most. -/
theorem Orderly.entriesOf_cases (horder : h.Orderly) (i : Nat) :
    h.entriesOf i = [] ∨ ∃ e, h.entriesOf i = [e] := by
  have hnodup : (h.entriesOf i).Nodup := (List.Nodup.of_map _ horder.distinct).filter _
  have hsame : ∀ e ∈ h.entriesOf i, e ∈ h.subscriptions.entries ∧ e.reach.session = i :=
    fun _ => mem_entriesOf.mp
  generalize h.entriesOf i = entries at hnodup hsame ⊢
  rcases entries with _ | ⟨e, _ | ⟨e', rest⟩⟩
  · exact .inl rfl
  · exact .inr ⟨e, rfl⟩
  · obtain ⟨he, hreach⟩ := hsame e (by simp)
    obtain ⟨he', hreach'⟩ := hsame e' (by simp)
    obtain rfl := horder.eq_of_session he he' (hreach.trans hreach'.symm)
    simp at hnodup

/-! ## Halls that follow a switchboard -/

/-- Whether a hall is on its way to what a switchboard says: times and checks are the same,
subscriptions, sessions and deliveries are in order, no two sessions go by the same
connection, and every seat is on its way to its line. -/
structure Follows (h : Hall) (b : Switchboard) : Prop where
  check_eq : b.check = h.check
  clock_eq : b.clock = h.clock
  period_eq : b.period = h.period
  elapsed_eq : b.elapsed = h.elapsed
  shuttingDown_eq : b.shuttingDown = h.shuttingDown
  orderly : h.Orderly
  consistent : h.Consistent
  pulses : h.Pulses
  parts_closed : h.PartsClosed
  length_eq : b.lines.length = h.sessions.length
  apart : (b.lines.map Line.connection).Nodup
  seats : ∀ i s l, h.sessions[i]? = some s → b.lines[i]? = some l → Foretells b (h.seat i s) l
  silent : ∀ i, h.sessions.length ≤ i → h.framesTo i = []

namespace Follows

/-- A line for every session. -/
theorem exists_line (hf : h.Follows b) (hs : h.sessions[i]? = some s) :
    ∃ l, b.lines[i]? = some l := by
  obtain ⟨hi, _⟩ := List.getElem?_eq_some_iff.mp hs
  exact ⟨_, List.getElem?_eq_getElem (by rw [hf.length_eq]; exact hi)⟩

/-- There are the sessions that there are lines for. -/
theorem connections_eq (hf : h.Follows b) :
    h.sessions.map Session.connection = b.lines.map Line.connection := by
  refine List.ext_getElem? fun i => ?_
  rw [List.getElem?_map, List.getElem?_map]
  cases hs : h.sessions[i]? with
  | none =>
    have hi := List.getElem?_eq_none_iff.mp hs
    rw [List.getElem?_eq_none_iff.mpr (by rw [hf.length_eq]; exact hi)]
    rfl
  | some s =>
    obtain ⟨l, hl⟩ := hf.exists_line hs
    rw [hl]
    exact congrArg some (hf.seats i s l hs hl).connection_eq.symm

/-- Two sessions do not go by the same connection. -/
theorem sessions_apart (hf : h.Follows b) : h.Apart := by
  rw [Hall.Apart, hf.connections_eq]
  exact hf.apart

/-- What is reached through sessions when one has dropped its subscription. -/
theorem entriesOf_withdraw (hf : h.Follows b) (hs : h.sessions[i]? = some s) (j : Nat) :
    (h.withdraw s.connection).entriesOf j = if i = j then [] else h.entriesOf j :=
  hf.sessions_apart.entriesOf_withdraw hf.orderly hs j

/-- What a hall follows it follows still when work has been done at one seat that leaves it
on its way to its line. -/
theorem of_seat (hf : h.Follows b) (hw : Works h m h') {s' : Session}
    (hs : h.sessions[i]? = some s) (hsessions : h'.sessions = h.sessions.set i s')
    (hothers : ∀ j, i ≠ j → h'.entriesOf j = h.entriesOf j ∧ h'.couriersTo j = h.couriersTo j ∧
      h'.framesTo j = h.framesTo j)
    (hhere : ∀ l, Foretells b (h.seat i s) l → Foretells b (h'.seat i s') l) : h'.Follows b := by
  have ht : Transition h m h' := hw.step_eq ▸ transition_step h m
  have henv : h'.check = h.check ∧ h'.clock = h.clock ∧ h'.period = h.period ∧
      h'.elapsed = h.elapsed ∧ h'.shuttingDown = h.shuttingDown := by
    cases hw <;> exact ⟨rfl, rfl, rfl, rfl, rfl⟩
  obtain ⟨hcheck, hclock, hperiod, helapsed, hshutting⟩ := henv
  refine ⟨hf.check_eq.trans hcheck.symm, hf.clock_eq.trans hclock.symm,
    hf.period_eq.trans hperiod.symm, hf.elapsed_eq.trans helapsed.symm,
    hf.shuttingDown_eq.trans hshutting.symm, hf.orderly.step ht, ?_, ?_, ?_,
    hf.length_eq.trans hw.length_eq.symm, hf.apart, fun j t l ht hl => ?_, fun j hj => ?_⟩
  · exact ⟨hf.consistent.held_step hf.orderly ht, hf.consistent.leaving_step ht,
      hf.consistent.reached_step hf.orderly ht⟩
  · exact hw.step_eq ▸ hf.pulses.step m
  · exact hw.step_eq ▸ hf.parts_closed.step hf.consistent m
  · rw [hsessions] at ht
    by_cases hij : i = j
    · subst hij
      obtain rfl : t = s' := eq_of_put (h := h) ht
      exact hhere l (hf.seats i s l hs hl)
    · rw [List.getElem?_set_ne hij] at ht
      obtain ⟨hentries, hcouriers, hframes⟩ := hothers j hij
      have hsame : h'.seat j t = h.seat j t := by
        rw [seat, hentries, hcouriers, hframes]
        rfl
      rw [hsame]
      exact hf.seats j t l ht hl
  · rw [hw.length_eq] at hj
    obtain ⟨hi, _⟩ := List.getElem?_eq_some_iff.mp hs
    rw [(hothers j (by omega)).2.2]
    exact hf.silent j hj

/-- What a hall follows it follows still when a session has gone on reading, or pinging,
without a word to others. -/
theorem of_put (hf : h.Follows b) {s' : Session} (hw : Works h m (h.put i s'))
    (hs : h.sessions[i]? = some s)
    (hhere : ∀ l, Foretells b (h.seat i s) l → Foretells b { h.seat i s with session := s' } l) :
    (h.put i s').Follows b :=
  hf.of_seat hw hs rfl (fun _ _ => ⟨rfl, rfl, rfl⟩) hhere

/-- So does a hall in which it has written something that is no frame. -/
theorem of_put_emit (hf : h.Follows b) {s' : Session} {o : Output}
    (ho : ∀ j, Output.frameTo j o = none) (hw : Works h m ((h.put i s').emit o))
    (hs : h.sessions[i]? = some s)
    (hhere : ∀ l, Foretells b (h.seat i s) l → Foretells b { h.seat i s with session := s' } l) :
    ((h.put i s').emit o).Follows b := by
  have hframes : ∀ j, ((h.put i s').emit o).framesTo j = h.framesTo j := by
    intro j
    unfold framesTo emit
    rw [List.filterMap_append, List.filterMap_cons_none (ho j), List.filterMap_nil,
      List.append_nil]
    rfl
  refine hf.of_seat hw hs rfl (fun j _ => ⟨rfl, rfl, hframes j⟩) fun l hl => ?_
  rw [seat, hframes]
  exact hhere l hl

/-- What a hall follows it follows still when a session has dropped the subscription of its
connection. -/
theorem of_withdraw_put (hf : h.Follows b) {s' : Session}
    (hw : Works h m ((h.withdraw s.connection).put i s')) (hs : h.sessions[i]? = some s)
    (hhere : ∀ l, Foretells b (h.seat i s) l →
      Foretells b { h.seat i s with session := s', entries := [] } l) :
    ((h.withdraw s.connection).put i s').Follows b := by
  refine hf.of_seat hw hs rfl (fun j hij => ⟨?_, rfl, rfl⟩) fun l hforetells => ?_
  · exact (hf.entriesOf_withdraw hs j).trans (if_neg hij)
  have hseat : ((h.withdraw s.connection).put i s').seat i s' =
      { h.seat i s with session := s', entries := [] } := by
    have hentries : ((h.withdraw s.connection).put i s').entriesOf i = [] :=
      (hf.entriesOf_withdraw hs i).trans (if_pos rfl)
    rw [seat, hentries]
    rfl
  rw [hseat]
  exact hhere l hforetells

/-- A delivery goes to a session, at whose seat it is under way. -/
theorem exists_target (hf : h.Follows b) (hc : h.couriers[k]? = some c) :
    ∃ s, h.sessions[c.delivery.target.reach.session]? = some s ∧
      c ∈ (h.seat c.delivery.target.reach.session s).couriers := by
  have hmem := List.mem_of_getElem? hc
  obtain ⟨s, hs, _⟩ := hf.consistent.reached c hmem
  exact ⟨s, hs, mem_couriersTo.mpr ⟨hmem, rfl⟩⟩

/-- What is reached through sessions when a delivery has dropped the subscription that it goes
to. -/
theorem entriesOf_withdraw_target (hf : h.Follows b) (hc : h.couriers[k]? = some c) (j : Nat) :
    (h.withdraw c.delivery.target.connection).entriesOf j =
      if c.delivery.target.reach.session = j then [] else h.entriesOf j := by
  obtain ⟨s, hs, hconnection, _⟩ := hf.consistent.reached c (List.mem_of_getElem? hc)
  rw [← hconnection]
  exact hf.entriesOf_withdraw hs j

/-- What a hall follows it follows still when a delivery has gone on, whatever became of its
session and of the subscription of that. -/
theorem of_putCourier (hf : h.Follows b) (hw : Works h m h') (hc : h.couriers[k]? = some c)
    (hstage : c.stage ≠ .withdrawing) (next : DeliveryStage)
    (hs : h.sessions[c.delivery.target.reach.session]? = some s) (s' : Session)
    (hsessions : h'.sessions = h.sessions.set c.delivery.target.reach.session s')
    (hcouriers : h'.couriers = (h.putCourier k { c with stage := next }).couriers)
    (houtputs : h'.outputs = h.outputs)
    (hothers : ∀ j, c.delivery.target.reach.session ≠ j → h'.entriesOf j = h.entriesOf j)
    (hhere : ∀ l, Foretells b (h.seat c.delivery.target.reach.session s) l →
      Foretells b { h.seat c.delivery.target.reach.session s with
        session := s'
        entries := h'.entriesOf c.delivery.target.reach.session
        couriers := [{ c with stage := next }] } l) : h'.Follows b := by
  have hcouriersTo : ∀ j, h'.couriersTo j =
      (h.putCourier k { c with stage := next }).couriersTo j := by
    intro j
    unfold couriersTo
    rw [hcouriers]
  have hframesTo : ∀ j, h'.framesTo j = h.framesTo j := by
    intro j
    unfold framesTo
    rw [houtputs]
  refine hf.of_seat hw hs hsessions (fun j hne => ⟨hothers j hne, ?_, hframesTo j⟩)
    fun l hforetells => ?_
  · rw [hcouriersTo, couriersTo_putCourier_of_ne hc next hne]
  · have hmem : c ∈ (h.seat c.delivery.target.reach.session s).couriers :=
      mem_couriersTo.mpr ⟨List.mem_of_getElem? hc, rfl⟩
    obtain ⟨_, _, _, hsingle, _⟩ := hforetells.of_courier hmem hstage
    rw [seat, hcouriersTo, couriersTo_putCourier hc next hsingle, hframesTo]
    exact hhere l hforetells

/-! ## Work of a session -/

/-- A session writes an answer. -/
theorem answer (hf : h.Follows b) (hs : h.sessions[i]? = some s) {frame : Frame}
    (hreading : s.reading = .answering frame) (htakes : s.socket.refusesFrames = false) :
    ((h.put i { s with reading := .waiting }).emit (.frame i frame .answer)).Follows b := by
  have hframes : ∀ j, ((h.put i { s with reading := .waiting }).emit
      (.frame i frame .answer)).framesTo j = if i = j then h.framesTo j ++ [frame] else
        h.framesTo j := fun j => framesTo_emit h i j frame .answer
  refine hf.of_seat (.answer hs hreading htakes) hs rfl (fun j hne => ⟨rfl, rfl, ?_⟩) fun l hl => ?_
  · exact (hframes j).trans (if_neg hne)
  · rw [seat, hframes, if_pos rfl]
    exact hl.answer hreading htakes

/-- A session judges a credential, when it has dropped its subscription. -/
theorem judge (hf : h.Follows b) (hs : h.sessions[i]? = some s) {credential : String}
    (hreading : s.reading = .checking credential) :
    (h.put i { s with reading := Session.judge h.check h.clock credential }).Follows b := by
  have hnone : h.entriesOf i = [] :=
    hf.consistent.entriesOf_eq_nil hs (by rw [hreading]; rfl)
  refine hf.of_put (.judge hs hreading) hs fun l hl => ?_
  rw [← hf.check_eq, ← hf.clock_eq]
  exact hl.judge hreading hnone

/-- A session subscribes its connection. -/
theorem join (hf : h.Follows b) (hs : h.sessions[i]? = some s) {token : Token}
    (hreading : s.reading = .joining token) :
    ({ h with
        subscriptions := h.subscriptions.subscribe s.connection token.userId ⟨i, token⟩ }.put i
      { s with reading := .answering .authOk }).Follows b := by
  have hentries : ∀ j, ({ h with
      subscriptions := h.subscriptions.subscribe s.connection token.userId ⟨i, token⟩ }.put i
      { s with reading := .answering .authOk }).entriesOf j =
        if i = j then [⟨s.connection, token.userId, ⟨i, token⟩⟩] else h.entriesOf j :=
    hf.sessions_apart.entriesOf_subscribe hf.orderly hs token
  refine hf.of_seat (.join hs hreading) hs rfl (fun j hne => ⟨?_, rfl, rfl⟩) fun l hl => ?_
  · exact (hentries j).trans (if_neg hne)
  · rw [seat, hentries, if_pos rfl]
    exact hl.join hreading i

/-- A session writes a ping that is due. -/
theorem ping (hf : h.Follows b) (hs : h.sessions[i]? = some s) (hresting : s.pinging = .resting)
    (hdue : s.pingAt ≤ h.elapsed) :
    ((h.put i { s with pinging := .sending, pingAt := h.nextPing s.pingAt }).emit
      (.ping i)).Follows b := by
  refine hf.of_put_emit (fun _ => rfl) (.ping hs hresting hdue) hs fun l hl =>
    hl.ping hresting ?_ ?_ ?_
  · rw [hf.elapsed_eq]
    exact hdue
  · rw [hf.period_eq]
    exact hf.pulses i s hs (by simp [hresting])
  · rw [hf.elapsed_eq, hf.period_eq]
    rfl

/-! ## Work of a delivery -/

/-- A delivery looks at the clock. -/
theorem look (hf : h.Follows b) (hc : h.couriers[k]? = some c) (hstage : c.stage = .begun) :
    (h.putCourier k { c with
      stage := if c.delivery.target.reach.token.isExpired h.clock then .expired
        else .writing (.ofEvent c.delivery.event) }).Follows b := by
  obtain ⟨s, hs, hmem⟩ := hf.exists_target hc
  refine hf.of_putCourier (.look hc hstage) hc (by rw [hstage]; nofun) _ hs s (sessions_eq_set hs)
    rfl rfl (fun _ _ => rfl) fun l hl => ?_
  rw [← hf.clock_eq]
  exact hl.look hmem hstage

/-- A delivery whose token has run out drops the subscription. -/
theorem expire (hf : h.Follows b) (hc : h.couriers[k]? = some c) (hstage : c.stage = .expired) :
    ((h.withdraw c.delivery.target.connection).putCourier k
      { c with stage := .writing .authRequest }).Follows b := by
  obtain ⟨s, hs, hmem⟩ := hf.exists_target hc
  have hentries : ∀ j, ((h.withdraw c.delivery.target.connection).putCourier k
      { c with stage := .writing .authRequest }).entriesOf j =
        if c.delivery.target.reach.session = j then [] else h.entriesOf j :=
    hf.entriesOf_withdraw_target hc
  refine hf.of_putCourier (.expire hc hstage) hc (by rw [hstage]; nofun) _ hs s
    (sessions_eq_set hs) rfl rfl (fun j hne => ?_) fun l hl => ?_
  · exact (hentries j).trans (if_neg hne)
  · rw [hentries, if_pos rfl]
    exact hl.expire hmem hstage

/-- A delivery writes its frame and is over. -/
theorem write (hf : h.Follows b) (hc : h.couriers[k]? = some c) {frame : Frame}
    (hstage : c.stage = .writing frame) (htakes : h.takesFrames c.delivery.target.reach.session) :
    ((h.dismiss k).emit
      (.frame c.delivery.target.reach.session frame (.event c.number))).Follows b := by
  obtain ⟨s, hs, hmem⟩ := hf.exists_target hc
  have hframes := fun j =>
    framesTo_emit (h.dismiss k) c.delivery.target.reach.session j frame (.event c.number)
  refine hf.of_seat (.write hc hstage htakes) hs (sessions_eq_set hs) (fun j hne => ⟨rfl, ?_, ?_⟩)
    fun l hl => ?_
  · exact couriersTo_dismiss_of_ne hc hne
  · exact (hframes j).trans (if_neg hne)
  · obtain ⟨_, _, _, hsingle, _⟩ := hl.of_courier hmem (by rw [hstage]; nofun)
    have hcouriers : ((h.dismiss k).emit (.frame c.delivery.target.reach.session frame
        (.event c.number))).couriersTo c.delivery.target.reach.session = [] :=
      couriersTo_dismiss hc hsingle
    rw [takesFrames_eq hs, Bool.not_eq_true'] at htakes
    rw [seat, hcouriers, hframes, if_pos rfl]
    exact hl.write hmem hstage htakes

/-- The frame of a delivery is refused. -/
theorem refuse (hf : h.Follows b) (hc : h.couriers[k]? = some c) {frame : Frame}
    (hstage : c.stage = .writing frame)
    (hrefuses : ¬ h.takesFrames c.delivery.target.reach.session) :
    (h.putCourier k { c with stage := .refused }).Follows b := by
  obtain ⟨s, hs, hmem⟩ := hf.exists_target hc
  have hsocket : s.socket.refusesFrames = true := by
    rwa [takesFrames_eq hs, Bool.not_eq_true', Bool.not_eq_false] at hrefuses
  exact hf.of_putCourier (.refuse hc hstage hrefuses) hc (by rw [hstage]; nofun) _ hs s
    (sessions_eq_set hs) rfl rfl (fun _ _ => rfl) fun l hl => hl.refuse hmem hstage hsocket

/-- A delivery that was refused declares its session closed. -/
theorem close (hf : h.Follows b) (hc : h.couriers[k]? = some c) (hstage : c.stage = .refused) :
    ((h.change c.delivery.target.reach.session fun s => { s with closed := true }).putCourier k
      { c with stage := .withdrawing }).Follows b := by
  obtain ⟨s, hs, hmem⟩ := hf.exists_target hc
  have hclosed := congrArg Hall.sessions (change_of_some hs fun s => { s with closed := true })
  exact hf.of_putCourier (.close hc hstage) hc (by rw [hstage]; nofun) _ hs _ hclosed rfl rfl
    (fun _ _ => rfl) fun l hl => hl.close hmem hstage

/-- It drops the subscription and is over. -/
theorem dismiss (hf : h.Follows b) (hc : h.couriers[k]? = some c)
    (hstage : c.stage = .withdrawing) :
    ((h.withdraw c.delivery.target.connection).dismiss k).Follows b := by
  obtain ⟨s, hs, hmem⟩ := hf.exists_target hc
  refine hf.of_seat (.dismiss hc hstage) hs (sessions_eq_set hs) (fun j hne => ⟨?_, ?_, rfl⟩)
    fun l hl => ?_
  · exact (hf.entriesOf_withdraw_target hc j).trans (if_neg hne)
  · exact couriersTo_dismiss_of_ne (h := h) hc hne
  · refine hl.dismiss hmem hstage fun c' hc' => ?_
    obtain ⟨hc', hreach⟩ := mem_couriersTo.mp hc'
    exact mem_couriersTo.mpr ⟨List.mem_of_mem_eraseIdx hc', hreach⟩

/-- Work leaves a hall following what it follows. -/
theorem works (hf : h.Follows b) (hw : Works h m h') : h'.Follows b := by
  have hwork := hw
  cases hw with
  | heed hs hreading hends =>
    refine hf.of_put hwork hs fun l hl => hl.end_on (.inr ⟨hreading, ?_⟩) rfl rfl rfl
    rw [hf.shuttingDown_eq]
    exact (Bool.or_eq_true _ _).mp hends
  | giveUp hs hreading hrefuses =>
    exact hf.of_put hwork hs fun l hl => hl.giveUp hreading hrefuses
  | answer hs hreading htakes => exact hf.answer hs hreading htakes
  | present hs hreading => exact hf.of_withdraw_put hwork hs fun l hl => hl.present hreading
  | judge hs hreading => exact hf.judge hs hreading
  | join hs hreading => exact hf.join hs hreading
  | leave hs hreading =>
    exact hf.of_put hwork hs fun l hl => hl.end_on (.inl (by rw [seat, hreading]; rfl)) rfl rfl rfl
  | withdraw hs hreading =>
    exact hf.of_withdraw_put hwork hs fun l hl =>
      hl.end_on (.inl (by rw [seat, hreading]; rfl)) rfl rfl rfl
  | part hs hreading =>
    exact hf.of_put_emit (fun _ => rfl) hwork hs fun l hl =>
      hl.end_on (.inl (by rw [seat, hreading]; rfl)) rfl rfl rfl
  | ping hs hresting hdue => exact hf.ping hs hresting hdue
  | stall hs hsending hstalls => exact hf.of_put hwork hs fun l hl => hl.stall hsending hstalls
  | fail hs hsending hflows hrefuses =>
    exact hf.of_put hwork hs fun l hl => hl.fail hsending hflows hrefuses
  | rest hs hsending hflows htakes =>
    exact hf.of_put hwork hs fun l hl => hl.rest hsending hflows htakes
  | stop hs hclosed => exact hf.of_put hwork hs fun l hl => hl.stop hclosed
  | look hc hstage => exact hf.look hc hstage
  | expire hc hstage => exact hf.expire hc hstage
  | write hc hstage htakes => exact hf.write hc hstage htakes
  | refuse hc hstage hrefuses => exact hf.refuse hc hstage hrefuses
  | close hc hstage => exact hf.close hc hstage
  | dismiss hc hstage => exact hf.dismiss hc hstage

end Follows

end Hall

end WaitingRoom
