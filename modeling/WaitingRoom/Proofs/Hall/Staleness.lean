import WaitingRoom.Proofs.Hall.Deliveries

/-!
# Staying subscribed

A connection that has subscribed stays subscribed until it presents another credential,
is closed, or a delivery to it finds that its token has run out. Deliveries are named by
the connection alone, so one that was started for an earlier subscription of the
connection is not idle: this file says what it can do to the one that is there.
-/

namespace WaitingRoom

/-- Whether a session that stands here can have a subscription. It has none from when it
drops the one it had, for a new credential or for good, until it subscribes again. -/
def Reading.canBeSubscribed : Reading → Bool
  | checking _ | joining _ | parting | done => false
  | _ => true

namespace Hall

variable {h h' : Hall} {m : Move} {moves : List Move}

/-- Whether sessions and deliveries agree with subscriptions: a session that is reached by
a subscription can be subscribed, one that is about to drop its subscription for good is
closed, and so is one whose delivery was not taken. -/
structure Consistent (h : Hall) : Prop where
  held : ∀ e ∈ h.subscriptions.entries, ∀ s, h.sessions[e.reach.session]? = some s →
    s.reading.canBeSubscribed = true
  leaving : ∀ (i : Nat) (s : Session), h.sessions[i]? = some s → s.reading = .withdrawing →
    s.closed = true
  reached : ∀ c ∈ h.couriers, ∃ s, h.sessions[c.delivery.target.reach.session]? = some s ∧
    s.connection = c.delivery.target.connection ∧ (c.stage = .withdrawing → s.closed = true)

/-- A session that drops the subscription of its connection is reached by none that stays. -/
theorem Orderly.ne_of_foreign (horder : h.Orderly) {e : Subscription Reach} {i : Nat}
    {s : Session} (he : e ∈ h.subscriptions.entries) (hs : h.sessions[i]? = some s)
    (hforeign : e.connection ≠ s.connection) : i ≠ e.reach.session := by
  rintro rfl
  obtain ⟨t, ht, hconnection⟩ := horder.connected e he
  obtain rfl := Option.some.inj (ht.symm.trans hs)
  exact hforeign hconnection.symm

/-- How the session that is reached by a subscription can stand after a move: where it
stood when the subscription was there, at what it has just heard, or where it can go on
while it is subscribed. -/
inductive Stands (h : Hall) (m : Move) (e : Subscription Reach) (s : Session) : Prop
  | before {t : Session} (he : e ∈ h.subscriptions.entries)
      (ht : h.sessions[e.reach.session]? = some t) (hreading : s.reading = t.reading)
  | heard {signal : Signal} (he : e ∈ h.subscriptions.entries)
      (hmove : m = .receive e.reach.session signal) (hreading : s.reading = Session.respond signal)
  | waiting (hreading : s.reading = .waiting)
  | answering {frame : Frame} (hreading : s.reading = .answering frame)
  | leaving (hreading : s.reading = .leaving)
  | withdrawing (hreading : s.reading = .withdrawing)

/-- What can become of the session that is reached by a subscription. -/
theorem Consistent.stands (hcons : h.Consistent) (horder : h.Orderly) (ht : Transition h m h')
    {e : Subscription Reach} {s : Session} (he : e ∈ h'.subscriptions.entries)
    (hs : h'.sessions[e.reach.session]? = some s) : h.Stands m e s := by
  have hold : e ∈ h.subscriptions.entries → ∀ j t, h.sessions[j]? = some t →
      j = e.reach.session → h.Stands m e t := by
    rintro hmem j t ht rfl
    exact .before hmem ht rfl
  suffices hall : ∀ j t, h'.sessions[j]? = some t → j = e.reach.session → h.Stands m e t from
    hall _ s hs rfl
  cases ht with
  | connect => exact forall_connect (hold he) fun j t hwaiting _ _ => .waiting hwaiting
  | hear signal =>
    refine forall_put (hold he) ?_
    rintro rfl
    exact .heard he rfl rfl
  | heed | giveUp => exact forall_put (hold he) fun _ => .leaving rfl
  | answer => exact forall_put (hold he) fun _ => .waiting rfl
  | leave => exact forall_put (hold he) fun _ => .withdrawing rfl
  | present hs₀ _ | withdraw hs₀ _ =>
    obtain ⟨hkept, hforeign⟩ := Subscriptions.mem_unsubscribe.mp he
    have hne := horder.ne_of_foreign hkept hs₀ hforeign
    exact forall_put (hold hkept) fun heq => absurd heq hne
  | judge hs₀ hreading | part hs₀ hreading =>
    -- A session that stands here has no subscription, so it is another one.
    refine forall_put (hold he) ?_
    rintro rfl
    have hcan := hcons.held e he _ hs₀
    rw [hreading] at hcan
    cases hcan
  | join =>
    rcases Subscriptions.mem_subscribe.mp he with ⟨hkept, _⟩ | rfl
    · exact forall_put (hold hkept) fun _ => .answering rfl
    · rintro j t ht rfl
      rw [eq_of_put ht]
      exact .answering rfl
  | ping pingAt hs₀ =>
    refine forall_put (hold he) ?_
    rintro rfl
    exact .before he hs₀ rfl
  | tend m hs₀ _ hreading _ =>
    refine forall_put (hold he) ?_
    rintro rfl
    exact .before he hs₀ hreading
  | close =>
    refine forall_change (hold he) fun t ht heq => ?_
    rw [heq] at ht
    exact .before he ht rfl
  | expire | dismiss => exact hold (Subscriptions.mem_unsubscribe.mp he).1
  | _ => exact hold he

/-- A session that has heard something can be subscribed still. -/
theorem canBeSubscribed_respond (signal : Signal) :
    (Session.respond signal).canBeSubscribed = true := by
  rcases respond_cases signal with ⟨_, _, _, _, hrespond⟩ | hrespond | hrespond | hrespond
  all_goals
    rw [hrespond]
    rfl

/-- Sessions reached by subscriptions can be subscribed after a move if they could before. -/
theorem Consistent.held_step (hcons : h.Consistent) (horder : h.Orderly)
    (ht : Transition h m h') :
    ∀ e ∈ h'.subscriptions.entries, ∀ s, h'.sessions[e.reach.session]? = some s →
      s.reading.canBeSubscribed = true := by
  intro e he s hs
  cases hcons.stands horder ht he hs with
  | before hmem ht hreading =>
    rw [hreading]
    exact hcons.held e hmem _ ht
  | @heard signal _ _ hreading =>
    rw [hreading]
    exact canBeSubscribed_respond signal
  | waiting hreading | answering hreading | leaving hreading | withdrawing hreading =>
    rw [hreading]
    rfl

/-- Sessions that are about to drop their subscription for good are closed after a move if
they were before. -/
theorem Consistent.leaving_step (hcons : h.Consistent) (ht : Transition h m h') :
    ∀ (i : Nat) (s : Session), h'.sessions[i]? = some s → s.reading = .withdrawing →
      s.closed = true := by
  have hold := hcons.leaving
  cases ht with
  | connect connection =>
    refine forall_connect hold fun j s hwaiting _ hreading => ?_
    cases hwaiting.symm.trans hreading
  | hear signal =>
    refine forall_put hold fun hreading => ?_
    rcases respond_cases signal with ⟨_, _, _, _, hrespond⟩ | hrespond | hrespond | hrespond
    all_goals cases hrespond.symm.trans hreading
  | @judge _ _ credential =>
    refine forall_put hold fun hreading => ?_
    rcases judge_cases h.check h.clock credential with ⟨_, _, _, hjudge⟩ | ⟨_, hjudge⟩
    all_goals cases hjudge.symm.trans hreading
  | leave => exact forall_put hold fun _ => rfl
  | heed | giveUp | answer | present | join | withdraw | part =>
    exact forall_put hold fun hreading => nomatch hreading
  | ping pingAt hs₀ =>
    have hsame := hold _ _ hs₀
    exact forall_put hold hsame
  | tend m hs₀ _ hreading hclosed =>
    refine forall_put hold fun hwithdrawing => hclosed ?_
    exact hold _ _ hs₀ (hreading.symm.trans hwithdrawing)
  | close => exact forall_change hold fun _ _ _ => rfl
  | _ => exact hold

/-- Deliveries reach sessions after a move if they did before, and those that were not
taken reach closed ones. -/
theorem Consistent.reached_step (hcons : h.Consistent) (horder : h.Orderly)
    (ht : Transition h m h') :
    ∀ c ∈ h'.couriers, ∃ s, h'.sessions[c.delivery.target.reach.session]? = some s ∧
      s.connection = c.delivery.target.connection ∧
      (c.stage = .withdrawing → s.closed = true) := by
  have hold : ∀ c ∈ h.couriers, ∃ s, h'.sessions[c.delivery.target.reach.session]? = some s ∧
      s.connection = c.delivery.target.connection ∧
      (c.stage = .withdrawing → s.closed = true) := by
    intro c hc
    obtain ⟨s, hs, hconnection, hclosed⟩ := hcons.reached c hc
    obtain ⟨s', hs', hconnection', hclosed'⟩ := ht.keeps_session hs
    exact ⟨s', hs', hconnection'.trans hconnection, fun hstage => hclosed' (hclosed hstage)⟩
  intro c' hc'
  cases ht with
  | trigger user event =>
    rcases List.mem_append.mp hc' with hkept | hnew
    · exact hold c' hkept
    · obtain ⟨d, hd, rfl⟩ := List.mem_map.mp hnew
      obtain ⟨s, hs, hconnection⟩ := horder.connected _ (Subscriptions.mem_trigger.mp hd).1
      exact ⟨s, hs, hconnection, nofun⟩
  | look hc hstage =>
    rcases List.mem_or_eq_of_mem_set hc' with hkept | rfl
    · exact hold c' hkept
    · obtain ⟨s, hs, hconnection, _⟩ := hold _ (List.mem_of_getElem? hc)
      refine ⟨s, hs, hconnection, fun hwithdrawing => ?_⟩
      simp only at hwithdrawing
      split at hwithdrawing <;> cases hwithdrawing
  | expire hc hstage | refuse hc hstage =>
    rcases List.mem_or_eq_of_mem_set hc' with hkept | rfl
    · exact hold c' hkept
    · obtain ⟨s, hs, hconnection, _⟩ := hold _ (List.mem_of_getElem? hc)
      exact ⟨s, hs, hconnection, nofun⟩
  | close hc hstage =>
    rcases List.mem_or_eq_of_mem_set hc' with hkept | rfl
    · exact hold c' hkept
    · obtain ⟨t, ht, _, _⟩ := hcons.reached _ (List.mem_of_getElem? hc)
      obtain ⟨s, hs, hconnection, _⟩ := hold _ (List.mem_of_getElem? hc)
      refine ⟨s, hs, hconnection, fun _ => ?_⟩
      change (h.change _ _).sessions[_]? = some s at hs
      rw [change_of_some ht] at hs
      rw [eq_of_put hs]
  | write | dismiss => exact hold c' (List.mem_of_mem_eraseIdx hc')
  | _ => exact hold c' hc'

/-- Sessions and deliveries agree with subscriptions at any time after a hall opened. -/
theorem consistent_run (check : Validator) (clock : Time.Instant) (period : Nat)
    (moves : List Move) : ((opened check clock period).run moves).Consistent := by
  induction moves using List.reverseRecOn with
  | nil =>
    constructor
    · intro e he
      cases he
    · intro i s hs
      cases hs
    · intro c hc
      cases hc
  | append_singleton moves m ih =>
    have ht := transition_step ((opened check clock period).run moves) m
    have horder := orderly_run check clock period moves
    rw [run_append_singleton]
    exact ⟨ih.held_step horder ht, ih.leaving_step ht, ih.reached_step horder ht⟩

/-! ## How subscriptions end -/

/-- Whether the session of a subscription heard the frame for another credential when the
subscription was there. -/
def Renewed (h : Hall) (moves : List Move) (e : Subscription Reach) : Prop :=
  Came moves fun past m => ∃ text credential, m = .receive e.reach.session (.text text) ∧
    Frame.parse text = .ok (.auth credential) ∧ e ∈ (h.run past).subscriptions.entries

/-- A session that presents a credential while it is subscribed heard the frame for it
when it was. -/
theorem renewed_of_presented (check : Validator) (clock : Time.Instant) (period : Nat)
    (moves : List Move) {e : Subscription Reach} {s : Session} {credential : String}
    (he : e ∈ ((opened check clock period).run moves).subscriptions.entries)
    (hs : ((opened check clock period).run moves).sessions[e.reach.session]? = some s)
    (hpresented : s.reading = .presented credential) :
    (opened check clock period).Renewed moves e := by
  induction moves using List.reverseRecOn generalizing s with
  | nil => cases he
  | append_singleton moves m ih =>
    have ht := transition_step ((opened check clock period).run moves) m
    have horder := orderly_run check clock period moves
    have hcons := consistent_run check clock period moves
    rw [run_append_singleton] at he hs
    cases hcons.stands horder ht he hs with
    | before hmem ht hreading =>
      exact Came.later (ih hmem ht (hreading.symm.trans hpresented)) m
    | @heard signal hmem hmove hreading =>
      rcases respond_cases signal with ⟨text, presented, rfl, hparse, _⟩ |
        hrespond | hrespond | hrespond
      · exact Came.now ⟨text, presented, hmove, hparse, hmem⟩
      all_goals cases (hrespond.symm.trans hreading.symm).trans hpresented
    | waiting hreading | answering hreading | leaving hreading | withdrawing hreading =>
      cases hreading.symm.trans hpresented

/-- Whether a move may end a subscription: its session has heard the frame for another
credential and presents it, or is closed; or another session goes by the same connection;
or a delivery to the connection has found that the token it carries has run out, or was
not taken by a session of the connection, which is closed. -/
inductive Ends (h : Hall) (moves : List Move) (e : Subscription Reach) : Move → Prop
  | renewed {s : Session} {credential : String}
      (hs : (h.run moves).sessions[e.reach.session]? = some s)
      (hreading : s.reading = .presented credential) (hrenewed : h.Renewed moves e) :
      Ends h moves e (.proceed e.reach.session)
  | closed {s : Session} (hs : (h.run moves).sessions[e.reach.session]? = some s)
      (hreading : s.reading = .withdrawing) (hclosed : s.closed = true) :
      Ends h moves e (.proceed e.reach.session)
  | usurped {i : Nat} {s : Session} (hs : (h.run moves).sessions[i]? = some s)
      (hother : i ≠ e.reach.session) (hconnection : s.connection = e.connection) :
      Ends h moves e (.proceed i)
  | expired {k : Nat} {c : Courier} (hc : (h.run moves).couriers[k]? = some c)
      (hconnection : c.delivery.target.connection = e.connection)
      (hlooked : h.Looked moves c.number c.delivery true) : Ends h moves e (.deliver k)
  | failed {k : Nat} {c : Courier} {s : Session} (hc : (h.run moves).couriers[k]? = some c)
      (hstage : c.stage = .withdrawing)
      (hs : (h.run moves).sessions[c.delivery.target.reach.session]? = some s)
      (hconnection : s.connection = e.connection) (hclosed : s.closed = true) :
      Ends h moves e (.deliver k)

variable {check : Validator} {clock : Time.Instant} {period : Nat}

/-- A subscription is there after a move unless the move is one that may end it. -/
theorem mem_entries_or_ends (m : Move) {e : Subscription Reach}
    (he : e ∈ ((opened check clock period).run moves).subscriptions.entries) :
    e ∈ ((opened check clock period).run (moves ++ [m])).subscriptions.entries ∨
      (opened check clock period).Ends moves e m := by
  have hcons := consistent_run check clock period moves
  have hacc := accounted_opened check clock period moves
  have ht := transition_step ((opened check clock period).run moves) m
  rw [run_append_singleton]
  refine (ht.mem_entries_or_drops he).imp_right fun hdrops => ?_
  cases hdrops with
  | @present i s credential hs hconnection hreading =>
    by_cases hown : i = e.reach.session
    · subst hown
      have hrenewed := renewed_of_presented check clock period moves he hs hreading
      exact .renewed hs hreading hrenewed
    · exact .usurped hs hown hconnection
  | @join i s token hs hconnection hreading =>
    refine .usurped hs ?_ hconnection
    rintro rfl
    have hcan := hcons.held e he s hs
    rw [hreading] at hcan
    cases hcan
  | @withdraw i s hs hconnection hreading =>
    by_cases hown : i = e.reach.session
    · subst hown
      exact .closed hs hreading (hcons.leaving _ s hs hreading)
    · exact .usurped hs hown hconnection
  | @expire k c hc hconnection hstage =>
    have hlooked := (hacc.couriers c (List.mem_of_getElem? hc)).2
    rw [hstage] at hlooked
    exact .expired hc hconnection hlooked
  | @dismiss k c hc hconnection hstage =>
    obtain ⟨s, hs, hconnection', hclosed⟩ := hcons.reached c (List.mem_of_getElem? hc)
    exact .failed hc hstage hs (hconnection'.trans hconnection) (hclosed hstage)

/-- A subscription is there at the end of a run unless some move of it may have ended it. -/
theorem mem_entries_run_or_ends (before later : List Move) {e : Subscription Reach}
    (he : e ∈ ((opened check clock period).run before).subscriptions.entries) :
    e ∈ ((opened check clock period).run (before ++ later)).subscriptions.entries ∨
      ∃ past m rest, later = past ++ m :: rest ∧
        (opened check clock period).Ends (before ++ past) e m := by
  induction later using List.reverseRecOn with
  | nil =>
    rw [List.append_nil]
    exact .inl he
  | append_singleton later m ih =>
    rcases ih with hkept | ⟨past, m', rest, rfl, hends⟩
    · rcases mem_entries_or_ends m hkept with hstays | hends
      · rw [← List.append_assoc]
        exact .inl hstays
      · exact .inr ⟨later, m, [], rfl, hends⟩
    · exact .inr ⟨past, m', rest ++ [m], by simp, hends⟩

/-! ## What deliveries can do -/

/-- A delivery that has not found that its token has run out drops no subscription, unless
its session did not take what it wrote and is closed; and it writes nothing but the
event it is about, and that at most once. -/
theorem deliver_harmless {k : Nat} {c : Courier}
    (hc : ((opened check clock period).run moves).couriers[k]? = some c)
    (hunexpired : ¬ (opened check clock period).Looked moves c.number c.delivery true) :
    let h := (opened check clock period).run moves
    let h' := h.step (.deliver k)
    (h'.subscriptions = h.subscriptions ∨
      c.stage = .withdrawing ∧ ∃ s, h.sessions[c.delivery.target.reach.session]? = some s ∧
        s.connection = c.delivery.target.connection ∧ s.closed = true) ∧
    (h'.outputs = h.outputs ∨
      h'.outputs = h.outputs ++
        [.frame c.delivery.target.reach.session (.ofEvent c.delivery.event) (.event c.number)] ∧
      c.ticket ∉ h.outputs.filterMap Output.ticket) := by
  intro h h'
  have hcourier := List.mem_of_getElem? hc
  have hstage := ((accounted_opened check clock period moves).couriers c hcourier).2
  have hstep : h' = h.deliver k c := by
    change h.step (.deliver k) = _
    rw [step, hc]
  rw [hstep]
  unfold deliver
  cases hwhere : c.stage with
  | begun => exact ⟨.inl rfl, .inl rfl⟩
  | expired =>
    rw [hwhere] at hstage
    exact absurd hstage hunexpired
  | writing frame =>
    rw [hwhere] at hstage
    rcases hstage with ⟨rfl, _⟩ | ⟨_, hlooked⟩
    · simp only
      split
      · refine ⟨.inl rfl, .inr ⟨rfl, fun hwritten => ?_⟩⟩
        have hdisjoint := (List.nodup_append.mp (orderly_run check clock period moves).single).2.2
        exact hdisjoint _ (List.mem_map_of_mem hcourier) _ hwritten rfl
      · exact ⟨.inl rfl, .inl rfl⟩
    · exact absurd hlooked hunexpired
  | refused => exact ⟨.inl rfl, .inl rfl⟩
  | withdrawing =>
    obtain ⟨s, hs, hconnection, hclosed⟩ :=
      (consistent_run check clock period moves).reached c hcourier
    exact ⟨.inr ⟨rfl, s, hs, hconnection, hclosed hwhere⟩, .inl rfl⟩

/-- **Staying.** At any time after a hall opened: a subscription that is there stays there
until its session has heard the frame for another credential, its session is closed (or
another one goes by the same connection), a write to its connection has failed, or a
delivery to its connection finds that the token it carries has run out. A delivery, also
one that was started for an earlier subscription of the connection, that has not found
its token run out drops no subscription unless its write has failed and the session is
closed, and writes nothing but the event that it is about, at most once. -/
theorem subscription_stays (check : Validator) (clock : Time.Instant) (period : Nat) :
    let h := opened check clock period
    (∀ before later, ∀ e ∈ (h.run before).subscriptions.entries,
      e ∈ (h.run (before ++ later)).subscriptions.entries ∨
        ∃ past m rest, later = past ++ m :: rest ∧ h.Ends (before ++ past) e m) ∧
    (∀ moves k c, (h.run moves).couriers[k]? = some c →
      ¬ h.Looked moves c.number c.delivery true →
      ((h.run (moves ++ [.deliver k])).subscriptions = (h.run moves).subscriptions ∨
        c.stage = .withdrawing ∧
          ∃ s, (h.run moves).sessions[c.delivery.target.reach.session]? = some s ∧
            s.connection = c.delivery.target.connection ∧ s.closed = true) ∧
      ((h.run (moves ++ [.deliver k])).outputs = (h.run moves).outputs ∨
        (h.run (moves ++ [.deliver k])).outputs = (h.run moves).outputs ++
          [.frame c.delivery.target.reach.session (.ofEvent c.delivery.event)
            (.event c.number)] ∧
        c.ticket ∉ (h.run moves).outputs.filterMap Output.ticket)) := by
  intro h
  constructor
  · intro before later e he
    exact mem_entries_run_or_ends before later he
  · intro moves k c hc hunexpired
    rw [run_append_singleton]
    exact deliver_harmless hc hunexpired

/-! ## What deliveries do to later subscriptions -/

/-- Whether a delivery under way was started for another subscription of a connection than
the one that is there. -/
def IsOutdated (h : Hall) (k : Nat) (e : Subscription Reach) : Prop :=
  e ∈ h.subscriptions.entries ∧ ∃ c, h.couriers[k]? = some c ∧
    c.delivery.target.connection = e.connection ∧ c.delivery.target ≠ e

/-- A minute before the epoch. -/
def minuteBefore : Time.Instant := ⟨-60, 0, by decide, by decide, by decide⟩

/-- A minute after the epoch. -/
def minuteAfter : Time.Instant := ⟨60, 0, by decide, by decide, by decide⟩

/-- A user's token that runs out at the epoch, and another user's that runs out later. -/
def twoTokens : Validator
  | "old" => .ok ⟨"old", "alice", .epoch⟩
  | _ => .ok ⟨"new", "bob", minuteAfter⟩

/-- The text with which a connection presents the first credential. -/
def oldText : String := "\x7b\"type\":\"auth\",\"payload\":\"old\"\x7d"

/-- The text with which it presents the second. -/
def newText : String := "\x7b\"type\":\"auth\",\"payload\":\"new\"\x7d"

/-- The first text is read as it is meant. -/
theorem respond_oldText : Session.respond (.text oldText) = .presented "old" := by
  decide +kernel

/-- So is the second. -/
theorem respond_newText : Session.respond (.text newText) = .presented "new" := by
  decide +kernel

/-- A connection subscribes with the one token, an event is triggered, and before it is
delivered the connection subscribes with the other token. -/
def overtaken : List Move :=
  [.connect "c", .receive 0 (.text oldText), .proceed 0, .proceed 0, .proceed 0, .proceed 0,
   .trigger "alice" ⟨.set, "d1"⟩,
   .receive 0 (.text newText), .proceed 0, .proceed 0, .proceed 0, .proceed 0]

/-- The subscription that is there then. -/
def newSubscription : Subscription Reach := ⟨"c", "bob", ⟨0, ⟨"new", "bob", minuteAfter⟩⟩⟩

/-- The delivery that is under way then. -/
def oldDelivery : Delivery Reach :=
  ⟨⟨"c", "alice", ⟨0, ⟨"old", "alice", .epoch⟩⟩⟩, ⟨.set, "d1"⟩⟩

/-- What has become of the hall by then. -/
theorem run_overtaken : (opened twoTokens minuteBefore 0).run overtaken =
    { check := twoTokens, clock := minuteBefore, period := 0
      subscriptions := ⟨[newSubscription]⟩
      sessions := [{ connection := "c", pinging := .stopped }]
      couriers := [{ number := 0, delivery := oldDelivery }]
      events := 1
      outputs := [.frame 0 .authOk .answer, .frame 0 .authOk .answer] } := by
  simp only [overtaken, run, List.foldl_cons, List.foldl_nil, step, respond_oldText,
    respond_newText]
  rfl

/-- So deliveries that were started for an earlier subscription of a connection do not
leave the connection alone: one that finds its own token run out drops the subscription
that is there, and one that does not tells of the event to which the connection is no
longer subscribed. -/
theorem outdated_deliveries_act :
    (¬ ∀ check clock period moves k e,
      ((opened check clock period).run moves).IsOutdated k e →
      e ∈ ((opened check clock period).run (moves ++ [.deliver k])).subscriptions.entries) ∧
    ¬ ∀ check clock period moves k e,
      ((opened check clock period).run moves).IsOutdated k e →
      ((opened check clock period).run (moves ++ [.deliver k])).outputs =
        ((opened check clock period).run moves).outputs := by
  have hother : oldDelivery.target ≠ newSubscription := by decide
  constructor
  · intro hclaim
    have hstays := hclaim twoTokens minuteBefore 0
      (overtaken ++ [.setClock .epoch] ++ [.deliver 0]) 0 newSubscription
    simp only [run_append_singleton, run_overtaken] at hstays
    cases hstays ⟨List.mem_singleton_self _, _, rfl, rfl, hother⟩
  · intro hclaim
    have hsilent := hclaim twoTokens minuteBefore 0 (overtaken ++ [.deliver 0]) 0 newSubscription
    simp only [run_append_singleton, run_overtaken] at hsilent
    cases hsilent ⟨List.mem_singleton_self _, _, rfl, rfl, hother⟩

end Hall

end WaitingRoom
