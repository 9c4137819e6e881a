import Mathlib.Data.List.Induction
import WaitingRoom.Proofs.Hall.Transitions

/-!
# The history of a hall

What is found in a hall has come about by moves in the past: a credential was presented,
a token accepted, a subscription made, an event triggered, the clock looked at, a frame
written, each after what it depends on. This file proves that sessions, subscriptions,
deliveries and outputs are what such a history accounts for, in every run.
-/

namespace WaitingRoom

/-- Whether a frame of this type tells of an event. -/
def FrameKind.isUpdate : FrameKind → Bool
  | updateSet | updateDelete | updateUse => true
  | _ => false

/-- A text that is read as the presentation of a credential is the frame for it. -/
theorem Frame.eq_auth {f : Frame} (hkind : f.kind = .auth) : f = .auth f.payload := by
  obtain ⟨kind, payload⟩ := f
  subst hkind
  rfl

/-- Whether a move was made of which something holds, given the moves before it. -/
def Came (moves : List Move) (P : List Move → Move → Prop) : Prop :=
  ∃ past m rest, moves = past ++ m :: rest ∧ P past m

/-- What has come has come when more moves are made. -/
theorem Came.append {moves : List Move} {P : List Move → Move → Prop} (h : Came moves P)
    (more : List Move) : Came (moves ++ more) P := by
  obtain ⟨past, m, rest, rfl, hP⟩ := h
  exact ⟨past, m, rest ++ more, by simp, hP⟩

/-- What has come has come when one more move is made. -/
theorem Came.later {moves : List Move} {P : List Move → Move → Prop} (h : Came moves P)
    (m : Move) : Came (moves ++ [m]) P := h.append [m]

/-- What holds of the last move has come. -/
theorem Came.now {moves : List Move} {P : List Move → Move → Prop} {m : Move} (h : P moves m) :
    Came (moves ++ [m]) P := ⟨moves, m, [], rfl, h⟩

/-- What has come by the last move came before it, or holds of it. -/
theorem Came.of_append_singleton {moves : List Move} {P : List Move → Move → Prop} {m : Move}
    (h : Came (moves ++ [m]) P) : Came moves P ∨ P moves m := by
  obtain ⟨past, m', rest, heq, hP⟩ := h
  rcases List.eq_nil_or_concat rest with rfl | ⟨rest, last, rfl⟩
  · obtain ⟨rfl, hlast⟩ := List.append_inj' heq rfl
    cases hlast
    exact .inr hP
  · have hsplit : moves ++ [m] = (past ++ m' :: rest) ++ [last] := by simpa using heq
    obtain ⟨rfl, _⟩ := List.append_inj' hsplit rfl
    exact .inl ⟨past, m', rest, rfl, hP⟩

/-- Of two things that have come, both hold of the same move, or one came before the
other. -/
theorem Came.compare {moves : List Move} {P Q : List Move → Move → Prop} (hP : Came moves P)
    (hQ : Came moves Q) :
    (∃ past m, P past m ∧ Q past m) ∨ (∃ past m, Came past P ∧ Q past m) ∨
      ∃ past m, Came past Q ∧ P past m := by
  obtain ⟨past, m, rest, rfl, hP⟩ := hP
  obtain ⟨past', m', rest', heq, hQ⟩ := hQ
  rcases List.append_eq_append_iff.mp heq with ⟨between, rfl, hrest⟩ | ⟨between, rfl, hrest⟩
  · cases between with
    | nil =>
      cases hrest
      rw [List.append_nil] at hQ
      exact .inl ⟨_, _, hP, hQ⟩
    | cons first between =>
      cases hrest
      exact .inr (.inl ⟨_, _, ⟨past, _, between, rfl, hP⟩, hQ⟩)
  · cases between with
    | nil =>
      cases hrest
      rw [List.append_nil] at hP
      exact .inl ⟨_, _, hP, hQ⟩
    | cons first between =>
      cases hrest
      exact .inr (.inr ⟨_, _, ⟨past', _, between, rfl, hQ⟩, hP⟩)

namespace Hall

/-- A hall that opens: nobody has connected and nothing has happened. -/
def opened (check : Validator) (clock : Time.Instant) (period : Nat) : Hall :=
  { check, clock, period }

/-- A run goes on where its first part has led. -/
theorem run_append (h : Hall) (moves more : List Move) :
    h.run (moves ++ more) = (h.run moves).run more := List.foldl_append

/-- A run up to its last move. -/
@[simp] theorem run_append_singleton (h : Hall) (moves : List Move) (m : Move) :
    h.run (moves ++ [m]) = (h.run moves).step m := run_append h moves [m]

/-! ## What came about -/

/-- Whether a connection presented a credential: a frame with it was read by the session. -/
def Presented (h : Hall) (moves : List Move) (i : Nat) (credential : String) : Prop :=
  Came moves fun past m => ∃ text s, m = .receive i (.text text) ∧
    Frame.parse text = .ok (.auth credential) ∧
    (h.run past).sessions[i]? = some s ∧ s.reading = .waiting

/-- Whether a token was accepted from a connection: it was given for a credential that the
connection had presented, and it had not run out. -/
def Accepted (h : Hall) (moves : List Move) (i : Nat) (token : Token) : Prop :=
  Came moves fun past m => ∃ credential s, m = .proceed i ∧
    (h.run past).sessions[i]? = some s ∧ s.reading = .checking credential ∧
    h.check credential = .ok token ∧ token.isExpired (h.run past).clock = false ∧
    h.Presented past i credential

/-- Whether a subscription was made, by a session that had accepted the token it carries,
of its connection, to the devices of the user of the token. -/
def Joined (h : Hall) (moves : List Move) (e : Subscription Reach) : Prop :=
  Came moves fun past m => ∃ s, m = .proceed e.reach.session ∧
    (h.run past).sessions[e.reach.session]? = some s ∧ s.reading = .joining e.reach.token ∧
    e.connection = s.connection ∧ e.user = e.reach.token.userId ∧
    h.Accepted past e.reach.session e.reach.token

/-- Whether the event of a number was triggered and led to a delivery: it concerned the
user to whose devices the target had subscribed, and the subscription was there. -/
def Triggered (h : Hall) (moves : List Move) (number : Nat) (d : Delivery Reach) : Prop :=
  Came moves fun past m => m = .trigger d.target.user d.event ∧ (h.run past).events = number ∧
    d.target ∈ (h.run past).subscriptions.entries ∧ h.Joined past d.target

/-- Whether a delivery looked at the clock, and found that the token of the subscription
had run out or that it had not. -/
def Looked (h : Hall) (moves : List Move) (number : Nat) (d : Delivery Reach)
    (expired : Bool) : Prop :=
  Came moves fun past m => ∃ k, m = .deliver k ∧
    (h.run past).couriers[k]? = some { number, delivery := d } ∧
    d.target.reach.token.isExpired (h.run past).clock = expired ∧ h.Triggered past number d

/-- What a delivery has to write once it has looked at the clock: that the event happened,
or that a new credential is wanted. -/
def Due (h : Hall) (moves : List Move) (number : Nat) (d : Delivery Reach) (frame : Frame) :
    Prop :=
  (frame = .ofEvent d.event ∧ h.Looked moves number d false) ∨
    (frame = .authRequest ∧ h.Looked moves number d true)

/-- Whether a delivery wrote a frame that was due. -/
def Written (h : Hall) (moves : List Move) (number : Nat) (d : Delivery Reach)
    (frame : Frame) : Prop :=
  Came moves fun past m => ∃ k, m = .deliver k ∧
    (h.run past).couriers[k]? = some { number, delivery := d, stage := .writing frame } ∧
    h.Due past number d frame

/-! ## What history accounts for -/

/-- What history accounts for the reading of a session. -/
def AccountsForReading (h : Hall) (moves : List Move) (i : Nat) : Reading → Prop
  | .presented credential | .checking credential => h.Presented moves i credential
  | .joining token => h.Accepted moves i token
  | .answering frame => frame.kind.isUpdate = false
  | _ => True

/-- What history accounts for a delivery. -/
def AccountsForCourier (h : Hall) (moves : List Move) (c : Courier) : Prop :=
  h.Triggered moves c.number c.delivery ∧
    match c.stage with
    | .begun => True
    | .expired => h.Looked moves c.number c.delivery true
    | .writing frame => h.Due moves c.number c.delivery frame
    | .refused | .withdrawing => ∃ frame, h.Due moves c.number c.delivery frame

/-- What history accounts for an output. -/
def AccountsForOutput (h : Hall) (moves : List Move) : Output → Prop
  | .frame _ frame .answer => frame.kind.isUpdate = false
  | .frame i frame (.event number) =>
    ∃ d, d.target.reach.session = i ∧ h.Written moves number d frame
  | _ => True

/-- Whether history accounts for all that is found in a hall. -/
structure Accounted (h : Hall) (moves : List Move) : Prop where
  check : (h.run moves).check = h.check
  readings : ∀ i s, (h.run moves).sessions[i]? = some s → h.AccountsForReading moves i s.reading
  entries : ∀ e ∈ (h.run moves).subscriptions.entries, h.Joined moves e
  couriers : ∀ c ∈ (h.run moves).couriers, h.AccountsForCourier moves c
  outputs : ∀ o ∈ (h.run moves).outputs, h.AccountsForOutput moves o

variable {h h' : Hall} {moves : List Move} {m : Move} {i number : Nat} {d : Delivery Reach}

/-- What was due is due when more has happened. -/
theorem Due.later {frame : Frame} (hdue : h.Due moves number d frame) (m : Move) :
    h.Due (moves ++ [m]) number d frame := by
  rcases hdue with ⟨hframe, hlooked⟩ | ⟨hframe, hlooked⟩
  · exact .inl ⟨hframe, Came.later hlooked m⟩
  · exact .inr ⟨hframe, Came.later hlooked m⟩

/-- What accounts for a reading accounts for it when more has happened. -/
theorem AccountsForReading.later {reading : Reading} (hold : h.AccountsForReading moves i reading)
    (m : Move) : h.AccountsForReading (moves ++ [m]) i reading := by
  cases reading with
  | presented | checking | joining => exact Came.later hold m
  | answering => exact hold
  | _ => trivial

/-- What accounts for a delivery accounts for it when more has happened. -/
theorem AccountsForCourier.later {c : Courier} (hold : h.AccountsForCourier moves c) (m : Move) :
    h.AccountsForCourier (moves ++ [m]) c := by
  obtain ⟨number, d, stage⟩ := c
  obtain ⟨htriggered, hstage⟩ := hold
  refine ⟨Came.later htriggered m, ?_⟩
  cases stage with
  | begun => trivial
  | expired => exact Came.later hstage m
  | writing frame => exact Due.later hstage m
  | refused | withdrawing =>
    obtain ⟨frame, hdue⟩ := hstage
    exact ⟨frame, hdue.later m⟩

/-- What accounts for an output accounts for it when more has happened. -/
theorem AccountsForOutput.later {o : Output} (hold : h.AccountsForOutput moves o) (m : Move) :
    h.AccountsForOutput (moves ++ [m]) o := by
  cases o with
  | frame i frame cause =>
    cases cause with
    | answer => exact hold
    | event number =>
      obtain ⟨d, hsession, hwritten⟩ := hold
      exact ⟨d, hsession, Came.later hwritten m⟩
  | _ => trivial

/-! ## What a move adds -/

/-- A session that has heard something presents a credential if it was a frame that says
so; otherwise it reports that it cannot read it, leaves, or waits. -/
theorem respond_cases (signal : Signal) :
    (∃ content credential, signal = .text content ∧
        Frame.parse content = .ok (.auth credential) ∧
        Session.respond signal = .presented credential) ∨
      Session.respond signal = .answering Session.unreadable ∨
      Session.respond signal = .leaving ∨ Session.respond signal = .waiting := by
  cases signal with
  | text content =>
    rw [Session.respond, Session.respondTo]
    split
    · exact .inr (.inl rfl)
    · rename_i frame hparse
      split
      · rename_i hkind
        rw [Frame.eq_auth hkind] at hparse
        exact .inl ⟨content, frame.payload, rfl, hparse, rfl⟩
      · exact .inr (.inr (.inr rfl))
  | other => exact .inr (.inr (.inr rfl))
  | close | failure | ended => exact .inr (.inr (.inl rfl))

/-- A session that has looked at a credential subscribes if its token is accepted and has
not run out, and reports why not otherwise. -/
theorem judge_cases (check : Validator) (now : Time.Instant) (credential : String) :
    (∃ token, check credential = .ok token ∧ token.isExpired now = false ∧
        Session.judge check now credential = .joining token) ∨
      ∃ why, Session.judge check now credential = .answering (.error why) := by
  unfold Session.judge
  split
  · exact .inr ⟨_, rfl⟩
  · rename_i token htoken
    split
    · exact .inr ⟨_, rfl⟩
    · rename_i hexpired
      exact .inl ⟨token, htoken, by simpa using hexpired, rfl⟩

/-- History accounts for what a session does about what it has heard. -/
theorem accountsFor_respond {s : Session} (hs : (h.run moves).sessions[i]? = some s)
    (hreading : s.reading = .waiting) (signal : Signal) :
    h.AccountsForReading (moves ++ [.receive i signal]) i (Session.respond signal) := by
  rcases respond_cases signal with ⟨content, credential, rfl, hparse, hrespond⟩ |
    hrespond | hrespond | hrespond
  · rw [hrespond]
    exact Came.now ⟨content, s, rfl, hparse, hs, hreading⟩
  · rw [hrespond]
    exact rfl
  · rw [hrespond]
    trivial
  · rw [hrespond]
    trivial

/-- History accounts for what a session does about a credential. -/
theorem accountsFor_judge {s : Session} {credential : String}
    (hcheck : (h.run moves).check = h.check) (hs : (h.run moves).sessions[i]? = some s)
    (hreading : s.reading = .checking credential) (hpresented : h.Presented moves i credential) :
    h.AccountsForReading (moves ++ [.proceed i]) i
      (Session.judge (h.run moves).check (h.run moves).clock credential) := by
  rcases judge_cases (h.run moves).check (h.run moves).clock credential with
    ⟨token, htoken, hexpired, hjudge⟩ | ⟨why, hjudge⟩
  · rw [hjudge]
    rw [hcheck] at htoken
    exact Came.now ⟨credential, s, rfl, hs, hreading, htoken, hexpired, hpresented⟩
  · rw [hjudge]
    exact rfl

/-- No move changes how credentials are checked. -/
theorem Transition.check_eq (ht : Transition h m h') : h'.check = h.check := by
  cases ht <;> rfl

/-- History accounts for readings after one more move. -/
theorem Accounted.readings_step (hacc : h.Accounted moves) (ht : Transition (h.run moves) m h') :
    ∀ i s, h'.sessions[i]? = some s → h.AccountsForReading (moves ++ [m]) i s.reading := by
  have hold : ∀ i s, (h.run moves).sessions[i]? = some s →
      h.AccountsForReading (moves ++ [m]) i s.reading :=
    fun i s hs => (hacc.readings i s hs).later m
  cases ht with
  | connect connection =>
    refine forall_connect hold fun j s hwaiting _ => ?_
    rw [hwaiting]
    trivial
  | hear signal hs hreading => exact forall_put hold (accountsFor_respond hs hreading signal)
  | present hs hreading =>
    refine forall_put hold ?_
    have hpresented := hold _ _ hs
    rw [hreading] at hpresented
    exact hpresented
  | judge hs hreading =>
    refine forall_put hold ?_
    have hpresented := hacc.readings _ _ hs
    rw [hreading] at hpresented
    exact accountsFor_judge hacc.check hs hreading hpresented
  | join hs hreading => exact forall_put hold rfl
  | heed | giveUp | answer | leave | withdraw | part => exact forall_put hold trivial
  | ping pingAt hs =>
    have hsame := hold _ _ hs
    exact forall_put hold hsame
  | tend m hs hconnection hreading hclosed =>
    refine forall_put hold ?_
    rw [hreading]
    exact hold _ _ hs
  | close hc hstage => exact forall_change hold fun s hs => hold _ s hs
  | _ => exact hold

/-- History accounts for subscriptions after one more move. -/
theorem Accounted.entries_step (hacc : h.Accounted moves) (ht : Transition (h.run moves) m h') :
    ∀ e ∈ h'.subscriptions.entries, h.Joined (moves ++ [m]) e := by
  intro e he
  rcases ht.mem_entries he with hkept | ⟨i, s, token, rfl, hs, hreading, rfl⟩
  · exact Came.later (hacc.entries e hkept) m
  · have haccepted := hacc.readings i s hs
    rw [hreading] at haccepted
    exact Came.now ⟨s, rfl, hs, hreading, rfl, rfl, haccepted⟩

/-- A delivery that goes on has something due once it has looked at the clock, and keeps
it. -/
theorem accountsFor_advances {k : Nat} {c c' : Courier}
    (hc : (h.run moves).couriers[k]? = some c) (hacc : h.AccountsForCourier moves c)
    (hadvances : Advances (h.run moves).clock c c') :
    h.AccountsForCourier (moves ++ [.deliver k]) c' := by
  have hlater := hacc.later (.deliver k)
  obtain ⟨htriggered, hstill⟩ := hlater
  refine ⟨by cases hadvances <;> exact htriggered, ?_⟩
  cases hadvances with
  | look hstage =>
    obtain ⟨number, d, stage⟩ := c
    subst hstage
    cases hexpired : d.target.reach.token.isExpired (h.run moves).clock with
    | true => exact Came.now ⟨k, rfl, hc, hexpired, hacc.1⟩
    | false => exact .inl ⟨rfl, Came.now ⟨k, rfl, hc, hexpired, hacc.1⟩⟩
  | expire hstage =>
    rw [hstage] at hstill
    exact .inr ⟨rfl, hstill⟩
  | @refuse frame hstage =>
    rw [hstage] at hstill
    exact ⟨frame, hstill⟩
  | close hstage =>
    rw [hstage] at hstill
    exact hstill

/-- History accounts for deliveries after one more move. -/
theorem Accounted.couriers_step (hacc : h.Accounted moves) (ht : Transition (h.run moves) m h') :
    ∀ c ∈ h'.couriers, h.AccountsForCourier (moves ++ [m]) c := by
  intro c' hc'
  rcases ht.mem_couriers hc' with hkept | ⟨user, event, rfl, d, hd, rfl⟩ |
    ⟨k, c, rfl, hc, hadvances⟩
  · exact (hacc.couriers c' hkept).later m
  · obtain ⟨htarget, rfl, rfl⟩ := Subscriptions.mem_trigger.mp hd
    exact ⟨Came.now ⟨rfl, rfl, htarget, hacc.entries _ htarget⟩, trivial⟩
  · exact accountsFor_advances hc (hacc.couriers c (List.mem_of_getElem? hc)) hadvances

/-- History accounts for outputs after one more move. -/
theorem Accounted.outputs_step (hacc : h.Accounted moves) (ht : Transition (h.run moves) m h') :
    ∀ o ∈ h'.outputs, h.AccountsForOutput (moves ++ [m]) o := by
  intro o ho
  rcases ht.mem_outputs ho with hkept | hwrites
  · exact (hacc.outputs o hkept).later m
  · cases hwrites with
    | answer hs hreading =>
      have hframe := hacc.readings _ _ hs
      rw [hreading] at hframe
      exact hframe
    | @deliver k c frame hc hstage =>
      obtain ⟨number, d, stage⟩ := c
      subst hstage
      have hdue := (hacc.couriers _ (List.mem_of_getElem? hc)).2
      exact ⟨d, rfl, Came.now ⟨k, rfl, hc, hdue⟩⟩
    | ping | goodbye => trivial

/-- History accounts for all that is found in a hall at any time after it opened. -/
theorem accounted_opened (check : Validator) (clock : Time.Instant) (period : Nat)
    (moves : List Move) : (opened check clock period).Accounted moves := by
  induction moves using List.reverseRecOn with
  | nil =>
    constructor
    · rfl
    · intro i s hs
      cases hs
    · intro e he
      cases he
    · intro c hc
      cases hc
    · intro o ho
      cases ho
  | append_singleton moves m ih =>
    have ht := transition_step ((opened check clock period).run moves) m
    rw [← run_append_singleton] at ht
    exact ⟨ht.check_eq.trans ih.check, ih.readings_step ht, ih.entries_step ht,
      ih.couriers_step ht, ih.outputs_step ht⟩

end Hall

end WaitingRoom
