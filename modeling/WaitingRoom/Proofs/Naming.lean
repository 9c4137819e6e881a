import Mathlib.Data.List.Nodup
import WaitingRoom.Proofs.Hall.Ownership
import WaitingRoom.Proofs.Text.Digits
import WaitingRoom.Web.Client

/-!
# The names of connections

A connection is named by its address and by the number of connections counted before it. The number
stands behind the last hyphen, since digits are no hyphens, so names tell both. As the count starts
over only when all numbers of 64 bits are used up, so many connections in a row have different
names, whatever their addresses, and sessions that go by such names leave each other's
subscriptions alone.
-/

namespace WaitingRoom

/-- Numbers that are written with the same digits are the same. -/
theorem Text.digits_inj {m n : Nat} : digits m = digits n ↔ m = n := by
  constructor
  · intro h
    rw [← valueOf_digits m, h, valueOf_digits]
  · rintro rfl
    rfl

/-- Where characters lack the one in front of them, that one is the last of its kind, so what
stands before it and what stands behind it are told apart. -/
theorem append_cons_inj_of_not_mem {α : Type} {a : α} {front front' behind behind' : List α}
    (h : a ∉ behind) (h' : a ∉ behind') :
    front ++ a :: behind = front' ++ a :: behind' ↔ front = front' ∧ behind = behind' := by
  constructor
  · intro hsame
    rcases List.append_eq_append_iff.mp hsame with ⟨more, rfl, hmore⟩ | ⟨more, rfl, hmore⟩
    · rcases List.cons_eq_append_iff.mp hmore with ⟨rfl, hrest⟩ | ⟨rest, rfl, rfl⟩
      · exact ⟨(List.append_nil _).symm, (List.cons.inj hrest).2.symm⟩
      · exact absurd (by simp) h
    · rcases List.cons_eq_append_iff.mp hmore with ⟨rfl, hrest⟩ | ⟨rest, rfl, rfl⟩
      · exact ⟨List.append_nil _, (List.cons.inj hrest).2⟩
      · exact absurd (by simp) h'
  · rintro ⟨rfl, rfl⟩
    rfl

namespace Service

/-- The name of a connection tells its address and its number. -/
theorem connectionId_inj {a b : String} {m n : UInt64} :
    connectionId a m = connectionId b n ↔ a = b ∧ m = n := by
  have hyphen (k : Nat) : '-' ∉ Text.digits k := fun hmem =>
    absurd (Text.isDigit_of_mem_digits hmem) (by decide)
  have hlist (a : String) (n : UInt64) : (connectionId a n).toList =
      ("ws-".toList ++ a.toList) ++ '-' :: Text.digits n.toNat := by
    simp [connectionId, Text.ofNat]
  rw [← String.toList_inj, hlist, hlist, append_cons_inj_of_not_mem (hyphen _) (hyphen _),
    List.append_right_inj, String.toList_inj, Text.digits_inj, UInt64.toNat_inj]

/-- The names of connections from some addresses, one after another. -/
def connectionIds (s : Service) : List String → List String
  | [] => []
  | address :: rest =>
    let (connection, s) := s.nextConnectionId address
    connection :: s.connectionIds rest

/-- Each name has the number of connections before it. -/
theorem getElem?_connectionIds (s : Service) (addresses : List String) (i : Nat) :
    (s.connectionIds addresses)[i]? =
      addresses[i]?.map fun address => connectionId address (s.connections + UInt64.ofNat i) := by
  induction addresses generalizing s i with
  | nil => rfl
  | cons address rest ih =>
    cases i with
    | zero => simp [connectionIds, nextConnectionId]
    | succ i =>
      have hcount : s.connections + 1 + UInt64.ofNat i = s.connections + UInt64.ofNat (i + 1) := by
        rw [UInt64.ofNat_add, UInt64.add_assoc, UInt64.add_comm (UInt64.ofNat i)]
        rfl
      have hrest := ih (s.nextConnectionId address).2 i
      simpa [connectionIds, nextConnectionId, hcount] using hrest

theorem length_connectionIds (s : Service) (addresses : List String) :
    (s.connectionIds addresses).length = addresses.length := by
  induction addresses generalizing s with
  | nil => rfl
  | cons address rest ih => exact congrArg (· + 1) (ih _)

/-- No two of as many connections in a row as there are numbers have the same name. -/
theorem nodup_connectionIds (s : Service) {addresses : List String}
    (hcount : addresses.length ≤ UInt64.size) : (s.connectionIds addresses).Nodup := by
  refine List.nodup_iff_getElem?_ne_getElem?.mpr fun i j hij hj hsame => ?_
  rw [length_connectionIds] at hj
  rw [getElem?_connectionIds, getElem?_connectionIds,
    List.getElem?_eq_getElem (Nat.lt_trans hij hj), List.getElem?_eq_getElem hj] at hsame
  obtain ⟨-, hnumber⟩ := connectionId_inj.mp (Option.some.inj hsame)
  have hbound : j < UInt64.size := Nat.lt_of_lt_of_le hj hcount
  have hnat := congrArg UInt64.toNat ((UInt64.add_right_inj _).mp hnumber)
  rw [UInt64.toNat_ofNat_of_lt' (Nat.lt_trans hij hbound), UInt64.toNat_ofNat_of_lt' hbound] at hnat
  exact absurd hnat (Nat.ne_of_lt hij)

theorem connectionIds_congr {s s' : Service} (h : s'.connections = s.connections)
    (addresses : List String) : s'.connectionIds addresses = s.connectionIds addresses := by
  refine List.ext_getElem? fun i => ?_
  rw [getElem?_connectionIds, getElem?_connectionIds, h]

end Service

/-! ## The sessions of a service -/

/-- Whether a hall is what another becomes by moves that start sessions for these connections, one
after another, and for no others. -/
def Hall.Opens (h : Hall) (connections : List String) (h' : Hall) : Prop :=
  ∃ moves, h' = h.run moves ∧ moves.filterMap Move.connection? = connections

namespace Hall.Opens

variable {h h' h'' : Hall} {connections more : List String}

theorem refl (h : Hall) : h.Opens [] h := ⟨[], rfl, rfl⟩

theorem trans (hfirst : h.Opens connections h') (hrest : h'.Opens more h'') :
    h.Opens (connections ++ more) h'' := by
  obtain ⟨moves, rfl, rfl⟩ := hfirst
  obtain ⟨rest, rfl, rfl⟩ := hrest
  exact ⟨moves ++ rest, (run_append ..).symm, List.filterMap_append⟩

/-- Coming to rest starts no session. -/
theorem settle (h : Hall) : h.Opens [] h.settle := by
  refine ⟨_, (run_append ..).symm, List.filterMap_eq_nil_iff.mpr fun m hm => ?_⟩
  rcases List.mem_append.mp hm with hm | hm
  · rw [List.eq_of_mem_replicate hm]
    rfl
  · obtain ⟨i, -, hm⟩ := List.mem_flatMap.mp hm
    have hnone : (Session.restMoves i).filterMap Move.connection? = [] := rfl
    exact List.filterMap_eq_nil_iff.mp hnone m hm

/-- Moves that are made until nothing is left to do start the sessions that they start by
themselves. -/
theorem act (h : Hall) (moves : List Move) :
    h.Opens (moves.filterMap Move.connection?) (h.act moves) := by
  have hall := Opens.trans ⟨moves, rfl, rfl⟩ (settle (h.run moves))
  rwa [List.append_nil] at hall

end Hall.Opens

namespace Service

/-- What happens to a service: a connection is opened from an address, a request is made, the client
of a session does something, time passes, in one leap or not, or the clock is moved. -/
inductive Occurrence
  | connect (address : String)
  | request (r : Web.Request)
  | send (session : Nat) (message : Web.ClientMessage)
  | pass (millis : Nat)
  | leap (millis : Nat)
  | moveClock (millis : Int)

/-- The address from which a connection is opened, if one is. -/
def Occurrence.address? : Occurrence → Option String
  | connect address => some address
  | _ => none

/-- The service after something has happened to it. A clock that would leave the calendar stays. -/
def after (s : Service) : Occurrence → Service
  | .connect address => s.connect address
  | .request r => (s.request r).2
  | .send i message => (Web.send s i message).2
  | .pass millis => s.pass millis
  | .leap millis => s.leap millis
  | .moveClock millis => (s.moveClock millis).getD s

/-- Whether a service becomes another without starting sessions and counting connections. -/
structure GoesOn (s s' : Service) : Prop where
  hall : s.hall.Opens [] s'.hall
  connections : s'.connections = s.connections

namespace GoesOn

variable {s s' s'' : Service}

theorem refl (s : Service) : GoesOn s s := ⟨.refl s.hall, rfl⟩

theorem trans (h : GoesOn s s') (h' : GoesOn s' s'') : GoesOn s s'' :=
  ⟨h.hall.trans h'.hall, h'.connections.trans h.connections⟩

/-- What the hall becomes is all that matters. -/
theorem of_hall {world : World} {hall : Hall} (h : s.hall.Opens [] hall) :
    GoesOn s { s with world, hall } := ⟨h, rfl⟩

theorem leap (s : Service) (millis : Nat) : GoesOn s (s.leap millis) := of_hall (.act s.hall _)

theorem passUntil (s : Service) (limit steps : Nat) : GoesOn s (s.passUntil limit steps) := by
  induction steps generalizing s with
  | zero => exact .refl s
  | succ steps ih =>
    rw [Service.passUntil]
    split
    · exact (GoesOn.leap s _).trans (ih _)
    · exact .refl s

/-- The records of a service make no difference to that. -/
theorem of_world {world : World} (h : GoesOn { s with world } s') : GoesOn s s' :=
  ⟨h.hall, h.connections⟩

theorem publish (s : Service) : GoesOn s s.publish := by
  have hnone : (s.world.notices.map fun n => Move.trigger n.user n.event).filterMap
      Move.connection? = [] := by
    rw [List.filterMap_map]
    exact List.filterMap_eq_nil_iff.mpr fun _ _ => rfl
  have hact := Hall.Opens.act s.hall (s.world.notices.map fun n => Move.trigger n.user n.event)
  rw [hnone] at hact
  exact of_hall hact

theorem request (s : Service) (r : Web.Request) : GoesOn s (s.request r).2 := by
  unfold Service.request
  split
  · exact of_world ((publish _).trans (leap _ 0))
  · exact of_world ((publish _).trans (passUntil _ _ _))

theorem send (s : Service) (i : Nat) (message : Web.ClientMessage) :
    GoesOn s (Web.send s i message).2 := by
  unfold Web.send
  split
  · exact .refl s
  · have hnone : (Session.readMoves i [message.signal]).filterMap Move.connection? = [] := rfl
    have hact := Hall.Opens.act s.hall (Session.readMoves i [message.signal])
    rw [hnone] at hact
    exact of_hall hact

theorem moveClock (s : Service) (millis : Int) : GoesOn s ((s.moveClock millis).getD s) := by
  rw [Service.moveClock]
  cases s.world.moveClock millis with
  | none => exact .refl s
  | some world => exact of_hall (.act s.hall [.setClock world.clock])

end GoesOn

/-- The sessions that a service starts go by the names that it gives out, in the same order. -/
theorem opens_after (s : Service) (occurrences : List Occurrence) :
    s.hall.Opens (s.connectionIds (occurrences.filterMap Occurrence.address?))
      (occurrences.foldl after s).hall := by
  induction occurrences generalizing s with
  | nil => exact .refl s.hall
  | cons o rest ih =>
    have hgoesOn (h : GoesOn s (s.after o)) (ho : o.address? = none) :
        s.hall.Opens (s.connectionIds ((o :: rest).filterMap Occurrence.address?))
          ((o :: rest).foldl after s).hall := by
      rw [List.filterMap_cons_none ho, ← connectionIds_congr h.connections]
      exact h.hall.trans (ih _)
    cases o with
    | connect address =>
      have hcount : (s.connect address).connections = (s.nextConnectionId address).2.connections :=
        rfl
      have hrest := connectionIds_congr hcount (rest.filterMap Occurrence.address?)
      have hall := (Hall.Opens.act s.hall [.connect (s.nextConnectionId address).1]).trans
        (ih (s.connect address))
      rwa [hrest] at hall
    | request r => exact hgoesOn (.request s r) rfl
    | send i message => exact hgoesOn (.send s i message) rfl
    | pass millis => exact hgoesOn (.passUntil s _ _) rfl
    | leap millis => exact hgoesOn (.leap s millis) rfl
    | moveClock millis => exact hgoesOn (.moveClock s millis) rfl

/-- **Connections never collide.** No two of up to 2^64 connections that are counted one after
another have the same name, from wherever the count goes on and whatever their addresses. So take
any run of a hall in which sessions, in any order, go by such names, each by one of its own. At any
time a subscription goes by the connection of the session through which it is reached, and by no
other session's, and it stays as it is whatever moves are made for other sessions, be it that they
subscribe, unsubscribe or end, and whatever becomes of deliveries to them. The sessions that a
service starts, whatever happens to it meanwhile, go by the names that it gives out. -/
theorem connections_never_collide (s : Service) {addresses : List String}
    (hcount : addresses.length ≤ UInt64.size) :
    (s.connectionIds addresses).Nodup ∧
    (∀ (check : Validator) (clock : Time.Instant) (period : Nat) (past later : List Move),
      ((past ++ later).filterMap Move.connection?).Subperm (s.connectionIds addresses) →
      let h := (Hall.opened check clock period).run past
      ∀ (i : Nat) (t : Session), h.sessions[i]? = some t →
        (∀ e ∈ h.subscriptions.entries, e.connection = t.connection ↔ e.reach.session = i) ∧
        (¬ h.Concerns later i → (h.run later).entriesOf i = h.entriesOf i)) ∧
    ∀ occurrences : List Occurrence, occurrences.filterMap Occurrence.address? = addresses →
      s.hall.Opens (s.connectionIds addresses) (occurrences.foldl after s).hall := by
  have hnodup := s.nodup_connectionIds hcount
  refine ⟨hnodup, ?_, ?_⟩
  · intro check clock period past later hnames h i t ht
    have hdistinct : ((past ++ later).filterMap Move.connection?).Nodup := by
      obtain ⟨names, hperm, hsub⟩ := hnames
      exact hperm.nodup_iff.mp (hnodup.sublist hsub)
    have hpast : (past.filterMap Move.connection?).Nodup :=
      hdistinct.sublist ((List.sublist_append_left past later).filterMap Move.connection?)
    have happart : h.Apart := Hall.apart_run hpast
    refine ⟨fun e he => ?_, Hall.entriesOf_run hdistinct⟩
    exact happart.connection_eq_iff (Hall.orderly_run check clock period past) he ht
  · rintro occurrences rfl
    exact s.opens_after occurrences

/-! ## Neighbours -/

/-- Two clients call, and one of them twice, from the same address. -/
def callers : List String := ["127.0.0.1:4000", "[::1]:4000", "127.0.0.1:4000"]

/-- The sessions of the client that calls twice start in reverse order, and the first to start
subscribes. -/
def arrivals : List Move :=
  [.connect "ws-127.0.0.1:4000-2", .connect "ws-127.0.0.1:4000-0",
   .receive 0 (.text Hall.oldText), .proceed 0, .proceed 0, .proceed 0, .proceed 0]

/-- The other one subscribes and leaves. -/
def farewell : List Move :=
  [.receive 1 (.text Hall.newText), .proceed 1, .proceed 1, .proceed 1, .proceed 1,
   .receive 1 .close, .proceed 1, .proceed 1]

/-- The names that the clients are given. -/
theorem connectionIds_callers (s : Service) (hfresh : s.connections = 0) :
    s.connectionIds callers =
      ["ws-127.0.0.1:4000-0", "ws-[::1]:4000-1", "ws-127.0.0.1:4000-2"] := by
  simp [callers, connectionIds, nextConnectionId, connectionId, hfresh, Text.ofNat, Text.digits,
    Text.digitChar]

/-- What has become of the hall when the first has subscribed. -/
theorem run_arrivals : (Hall.opened Hall.twoTokens Hall.minuteBefore 0).run arrivals =
    { check := Hall.twoTokens, clock := Hall.minuteBefore, period := 0
      subscriptions := ⟨[⟨"ws-127.0.0.1:4000-2", "alice", ⟨0, ⟨"old", "alice", .epoch⟩⟩⟩]⟩
      sessions := [{ connection := "ws-127.0.0.1:4000-2", pinging := .stopped },
                   { connection := "ws-127.0.0.1:4000-0", pinging := .stopped }]
      outputs := [.frame 0 .authOk .answer] } := by
  simp only [arrivals, Hall.run, List.foldl_cons, List.foldl_nil, Hall.step,
    Hall.respond_oldText]
  rfl

/-- The first stays subscribed when the other one has left. -/
theorem neighbour_stays_subscribed :
    let s : Service :=
      { check := Hall.twoTokens, hall := Hall.opened Hall.twoTokens Hall.minuteBefore 0 }
    let h := s.hall.run arrivals
    callers.length ≤ UInt64.size ∧
    ((arrivals ++ farewell).filterMap Move.connection?).Subperm (s.connectionIds callers) ∧
    h.sessions[0]? = some { connection := "ws-127.0.0.1:4000-2", pinging := .stopped } ∧
    ¬ h.Concerns farewell 0 ∧
    (h.run farewell).entriesOf 0 =
      [⟨"ws-127.0.0.1:4000-2", "alice", ⟨0, ⟨"old", "alice", .epoch⟩⟩⟩] := by
  intro s h
  have hcount : callers.length ≤ UInt64.size := by decide
  have hnames : ((arrivals ++ farewell).filterMap Move.connection?).Subperm
      (s.connectionIds callers) := by
    have hstarted : (arrivals ++ farewell).filterMap Move.connection? =
        ["ws-127.0.0.1:4000-2", "ws-127.0.0.1:4000-0"] := rfl
    rw [hstarted, connectionIds_callers s rfl]
    exact ⟨["ws-127.0.0.1:4000-0", "ws-127.0.0.1:4000-2"], .swap .., by decide⟩
  have hh : h = _ := run_arrivals
  have hs : h.sessions[0]? = some { connection := "ws-127.0.0.1:4000-2", pinging := .stopped } := by
    rw [hh]
    rfl
  have hothers : ¬ h.Concerns farewell 0 := by
    rintro ⟨past, m, rest, hsplit, hagent⟩
    have hmem : m ∈ farewell := by simp [hsplit]
    simp only [farewell, List.mem_cons, List.not_mem_nil, or_false] at hmem
    rcases hmem with rfl | rfl | rfl | rfl | rfl | rfl | rfl | rfl <;> cases hagent
  obtain ⟨-, hruns, -⟩ := connections_never_collide s hcount
  obtain ⟨-, hkept⟩ := hruns _ _ _ arrivals farewell hnames 0 _ hs
  refine ⟨hcount, hnames, hs, hothers, (hkept hothers).trans ?_⟩
  rw [show (Hall.opened Hall.twoTokens Hall.minuteBefore 0).run arrivals = _ from run_arrivals]
  rfl

end Service

end WaitingRoom
