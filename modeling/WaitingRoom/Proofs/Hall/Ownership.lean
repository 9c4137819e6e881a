import WaitingRoom.Proofs.Hall.Lines
import WaitingRoom.Proofs.Hall.Staleness

/-!
# Whose subscription it is

Sessions subscribe and unsubscribe by the names of their connections alone. So it is their own
subscriptions that they change, and no others', as long as no two sessions go by the same
connection: then a move changes what is reached through one session at most, the one that makes the
move or to which a delivery is under way.
-/

namespace WaitingRoom

namespace Hall

/-- The subscriptions that are reached through the session with this number. -/
def entriesOf (h : Hall) (i : Nat) : List (Subscription Reach) :=
  h.subscriptions.entries.filter fun e => e.reach.session == i

/-- Whether no two sessions go by the same connection. -/
def Apart (h : Hall) : Prop := (h.sessions.map Session.connection).Nodup

/-- The session for which a move is made: the one whose step it is, or to which the delivery is
that goes on. -/
def agent? (h : Hall) : Move → Option Nat
  | .receive i _ | .notice i | .proceed i | .startPing i | .finishPing i | .stopPinging i
  | .socket i _ => some i
  | .deliver k => h.couriers[k]?.map fun c => c.delivery.target.reach.session
  | .connect _ | .trigger .. | .setClock _ | .pass _ | .shutDown => none

/-- Whether one of some moves is made for the session with this number. -/
def Concerns (h : Hall) (moves : List Move) (i : Nat) : Prop :=
  Came moves fun past m => (h.run past).agent? m = some i

variable {h h' : Hall} {m : Move} {i j : Nat} {s t : Session}

/-- Which subscriptions are reached through a session. -/
theorem mem_entriesOf {e : Subscription Reach} :
    e ∈ h.entriesOf i ↔ e ∈ h.subscriptions.entries ∧ e.reach.session = i := by
  rw [entriesOf, List.mem_filter, beq_iff_eq]

namespace Apart

/-- Two sessions do not go by the same connection. -/
theorem eq_of_connection (happart : h.Apart) (hs : h.sessions[i]? = some s)
    (ht : h.sessions[j]? = some t) (hsame : s.connection = t.connection) : i = j := by
  have hi : i < (h.sessions.map Session.connection).length := by
    rw [List.length_map]
    exact (List.getElem?_eq_some_iff.mp hs).1
  refine (List.getElem?_inj hi happart).mp ?_
  rw [List.getElem?_map, List.getElem?_map, hs, ht]
  exact congrArg some hsame

/-- A subscription goes by the connection of the session through which it is reached, and by that
of no other. -/
theorem connection_eq_iff (happart : h.Apart) (horder : h.Orderly) {e : Subscription Reach}
    (he : e ∈ h.subscriptions.entries) (hs : h.sessions[i]? = some s) :
    e.connection = s.connection ↔ e.reach.session = i := by
  obtain ⟨t, ht, hconnection⟩ := horder.connected e he
  constructor
  · intro hsame
    exact happart.eq_of_connection ht hs (hconnection.trans hsame)
  · rintro rfl
    obtain rfl := Option.some.inj (ht.symm.trans hs)
    exact hconnection.symm

/-- No subscription is reached through a session that has dropped its own, and those that are
reached through others are as they were. -/
theorem entriesOf_withdraw (happart : h.Apart) (horder : h.Orderly) (hs : h.sessions[i]? = some s)
    (j : Nat) : (h.withdraw s.connection).entriesOf j = if i = j then [] else h.entriesOf j := by
  have hkept : (h.withdraw s.connection).entriesOf j =
      h.subscriptions.entries.filter fun e => e.reach.session == j && e.reach.session != i := by
    unfold entriesOf withdraw Subscriptions.unsubscribe
    rw [List.filter_filter]
    refine List.filter_congr fun e he => ?_
    have howns := happart.connection_eq_iff horder he hs
    rw [Bool.eq_iff_iff, Bool.and_eq_true, Bool.and_eq_true, bne_iff_ne, bne_iff_ne, Ne, Ne, howns]
  rw [hkept]
  split
  · rename_i hij
    subst hij
    simp [List.filter_eq_nil_iff]
  · rename_i hij
    refine List.filter_congr fun e he => ?_
    by_cases hj : e.reach.session = j
    · simp [hj, Ne.symm hij]
    · simp [hj]

/-- The connection of a session that has joined is subscribed through it, and what is reached
through others is as it was. -/
theorem entriesOf_subscribe (happart : h.Apart) (horder : h.Orderly)
    (hs : h.sessions[i]? = some s) (token : Token) (j : Nat) :
    { h with
        subscriptions := h.subscriptions.subscribe s.connection token.userId ⟨i, token⟩
        }.entriesOf j =
      if i = j then [⟨s.connection, token.userId, ⟨i, token⟩⟩] else h.entriesOf j := by
  have hsplit : { h with
      subscriptions := h.subscriptions.subscribe s.connection token.userId ⟨i, token⟩
      }.entriesOf j = (h.withdraw s.connection).entriesOf j ++
        if i = j then [⟨s.connection, token.userId, ⟨i, token⟩⟩] else [] := by
    unfold entriesOf Subscriptions.subscribe withdraw
    simp only [List.filter_append, List.filter_cons, List.filter_nil, beq_iff_eq]
  rw [hsplit, happart.entriesOf_withdraw horder hs]
  split
  · rw [List.nil_append]
  · rw [List.append_nil]

/-- A move changes nothing that is reached through other sessions than the one for which it is
made. -/
theorem entriesOf_transition (happart : h.Apart) (horder : h.Orderly) (hcons : h.Consistent)
    (ht : Transition h m h') (hother : h.agent? m ≠ some j) : h'.entriesOf j = h.entriesOf j := by
  have hwithdraw {i : Nat} {s : Session} (hs : h.sessions[i]? = some s) (hne : i ≠ j) :
      (h.withdraw s.connection).entriesOf j = h.entriesOf j := by
    rw [happart.entriesOf_withdraw horder hs, if_neg hne]
  cases ht with
  | present hs | withdraw hs => exact hwithdraw hs fun heq => hother (congrArg some heq)
  | join hs =>
    have hne := fun heq => hother (congrArg some heq)
    exact (happart.entriesOf_subscribe horder hs _ j).trans (if_neg hne)
  | expire hc | dismiss hc =>
    obtain ⟨s, hs, hconnection, _⟩ := hcons.reached _ (List.mem_of_getElem? hc)
    have hne := fun heq => hother ((congrArg (Option.map _) hc).trans (congrArg some heq))
    have hkept := hwithdraw hs hne
    rwa [hconnection] at hkept
  | _ => rfl

end Apart

/-! ## Which connections there are -/

/-- A session that is put in the place of another of the same connection leaves all connections as
they were. -/
theorem connections_put (hs : h.sessions[i]? = some s) (hconnection : t.connection = s.connection) :
    (h.put i t).sessions.map Session.connection = h.sessions.map Session.connection := by
  obtain ⟨hi, rfl⟩ := List.getElem?_eq_some_iff.mp hs
  have hi' : i < (h.sessions.map Session.connection).length := by simpa using hi
  rw [put, List.map_set, hconnection, ← List.getElem_map Session.connection (h := hi'),
    List.set_getElem_self]

/-- A move leaves all connections as they were, unless it is a session that starts. -/
theorem Transition.connections_eq (ht : Transition h m h') :
    h'.sessions.map Session.connection = h.sessions.map Session.connection ∨
      ∃ connection, m = .connect connection := by
  cases ht with
  | connect connection => exact .inr ⟨connection, rfl⟩
  | tend m hs hconnection => exact .inl (connections_put hs hconnection)
  | hear _ hs | heed hs | giveUp hs | answer hs | present hs | judge hs | join hs | leave hs
  | withdraw hs | part hs | ping _ hs => exact .inl (connections_put hs rfl)
  | close hc =>
    rename_i k c _
    cases hs : h.sessions[c.delivery.target.reach.session]? with
    | none =>
      rw [change_of_none hs]
      exact .inl rfl
    | some s =>
      rw [change_of_some hs]
      exact .inl (connections_put hs rfl)
  | _ => exact .inl rfl

/-- Which connections there are, in their order, is changed by sessions that start. -/
theorem connections_step (h : Hall) (m : Move) :
    (h.step m).sessions.map Session.connection =
      h.sessions.map Session.connection ++ m.connection?.toList := by
  cases m with
  | connect connection => simp [step, connect, Move.connection?]
  | _ =>
    refine ((transition_step h _).connections_eq.resolve_right ?_).trans (List.append_nil _).symm
    rintro ⟨_, hconnect⟩
    cases hconnect

/-- The connections after a run are those before it and those that sessions started for. -/
theorem connections_run (h : Hall) (moves : List Move) :
    (h.run moves).sessions.map Session.connection =
      h.sessions.map Session.connection ++ moves.filterMap Move.connection? := by
  induction moves using List.reverseRecOn with
  | nil => exact (List.append_nil _).symm
  | append_singleton moves m ih =>
    rw [run_append_singleton, connections_step, ih, List.filterMap_append, List.append_assoc]
    cases hm : m.connection? <;> simp [hm]

/-! ## Runs -/

variable {check : Validator} {clock : Time.Instant} {period : Nat} {past later : List Move}

/-- No two sessions go by the same connection if none was started twice. -/
theorem apart_run (hnames : (past.filterMap Move.connection?).Nodup) :
    ((opened check clock period).run past).Apart := by
  rw [Apart, connections_run]
  exact hnames

/-- Moves that are made for others change nothing that is reached through a session. -/
theorem entriesOf_run (hnames : ((past ++ later).filterMap Move.connection?).Nodup)
    (hothers : ¬ ((opened check clock period).run past).Concerns later j) :
    (((opened check clock period).run past).run later).entriesOf j =
      ((opened check clock period).run past).entriesOf j := by
  induction later using List.reverseRecOn with
  | nil => rfl
  | append_singleton later m ih =>
    have hsub : (past ++ later).Sublist (past ++ (later ++ [m])) :=
      (List.sublist_append_left later [m]).append_left past
    have hbefore := hnames.sublist (hsub.filterMap Move.connection?)
    have hstep := (apart_run hbefore).entriesOf_transition (j := j)
      (orderly_run check clock period (past ++ later))
      (consistent_run check clock period (past ++ later)) (transition_step _ m)
    rw [run_append] at hstep
    rw [run_append_singleton, hstep fun hagent => hothers (Came.now hagent)]
    exact ih hbefore fun hconcerns => hothers (Came.later hconcerns m)

end Hall

end WaitingRoom
