import WaitingRoom.Proofs.Desk.Deeds
import WaitingRoom.Proofs.Desk.Removals
import WaitingRoom.Proofs.Desk.Replies

/-!
# The life of a record

Where no removals are put off, the store is what has been done: a record is there from the
deed that wrote it for the first time to the one that deletes it, and all that it says was
said by the deed that created it, by the last one that wrote it, or by the last one that
decided whether it is hidden. What a client says about owner and times counts for nothing.
-/

namespace WaitingRoom

open Time (Instant)

/-! ## What deeds say of records -/

/-- Whether an operation writes what a payload says under a local id. -/
def Operation.Sets (op : Operation) (id : String) (payload : Device) : Prop :=
  op = .set payload ∧ payload.localId = id

/-- Whether there has been a record under a local id ever since it was last written. -/
def Stands (past : List Deed) (id : String) : Prop :=
  Latest past (fun _ d => ∃ p, d.operation.Sets id p) fun d => id ∈ d.operation.discards

/-- Whether an operation decides that the record under a local id is to be hidden, or not
to be. A payload has no say in that where there is no record yet. -/
def Operation.Veils (op : Operation) (past : List Deed) (id : String) (hidden : Bool) : Prop :=
  (∃ p, op.Sets id p ∧ (Stands past id → hidden = p.hidden) ∧
    (¬ Stands past id → hidden = false)) ∨
  (op = .hide id ∧ hidden = true) ∨ (op = .show id ∧ hidden = false)

/-- Whether a record says what the deeds under its local id have made it say: owner and
beginning are those of the deed that created it, the last deed that wrote it gave the time
of its change and all that clients may say, and another one may have decided since whether
it is hidden. -/
structure Tells (past : List Deed) (r : Device) : Prop where
  created : Latest past
    (fun before d => (∃ p, d.operation.Sets r.localId p) ∧ ¬ Stands before r.localId ∧
      r.userId = d.user ∧ r.createdAt = d.time)
    fun d => r.localId ∈ d.operation.discards
  written : Latest past
    (fun _ d => ∃ p, d.operation.Sets r.localId p ∧ r.updatedAt = d.time ∧ r.id = p.id ∧
      r.name = p.name ∧ r.deviceTypeId = p.deviceTypeId ∧ r.attributes = p.attributes)
    fun d => ∃ p, d.operation.Sets r.localId p
  veiled : Latest past (fun before d => d.operation.Veils before r.localId r.hidden)
    fun d => (∃ p, d.operation.Sets r.localId p) ∨ d.operation = .hide r.localId ∨
      d.operation = .show r.localId

/-- Whether an operation has nothing to do with a local id. -/
def Operation.Spares (op : Operation) (id : String) : Prop :=
  (∀ p, ¬ op.Sets id p) ∧ id ∉ op.discards ∧ op ≠ .hide id ∧ op ≠ .show id

variable {past : List Deed} {d : Deed} {r : Device} {id : String}

/-- Whether there is a record does not depend on deeds that have nothing to do with it. -/
theorem stands_of_spares (h : d.operation.Spares id) :
    Stands (past ++ [d]) id ↔ Stands past id := by
  obtain ⟨hsets, hdiscards, -⟩ := h
  unfold Stands
  rw [latest_append_singleton]
  constructor
  · rintro (⟨p, hp⟩ | ⟨hstands, -⟩)
    · exact absurd hp (hsets p)
    · exact hstands
  · exact fun hstands => .inr ⟨hstands, hdiscards⟩

/-- What a record says does not depend on deeds that have nothing to do with it. -/
theorem Tells.of_spares (h : Tells past r) (hspares : d.operation.Spares r.localId) :
    Tells (past ++ [d]) r := by
  obtain ⟨hsets, hdiscards, hhide, hshow⟩ := hspares
  have hwrites : ¬ ∃ p, d.operation.Sets r.localId p := fun ⟨p, hp⟩ => hsets p hp
  constructor
  · exact latest_append_singleton.mpr (.inr ⟨h.created, hdiscards⟩)
  · exact latest_append_singleton.mpr (.inr ⟨h.written, hwrites⟩)
  · refine latest_append_singleton.mpr (.inr ⟨h.veiled, ?_⟩)
    rintro (hset | hhidden | hshown)
    · exact hwrites hset
    · exact hhide hhidden
    · exact hshow hshown

/-! ## One deed more -/

namespace Time.Instant

/-- An instant is no later than itself. -/
theorem atMost_refl (t : Instant) : t.atMost t := by
  simp [atMost, isBefore]

/-- What is no later than something that is no later than a third is no later than that. -/
theorem atMost_trans {s t u : Instant} (hst : s.atMost t) (htu : t.atMost u) : s.atMost u := by
  simp only [atMost, isBefore, Bool.not_eq_true', Bool.or_eq_false_iff, Bool.and_eq_false_iff,
    decide_eq_false_iff_not, beq_eq_false_iff_ne] at hst htu ⊢
  omega

end Time.Instant

/-- Whether what is found under a local id is what has been done there by now: nothing, or
a record that stands, says what it should, and whose times are in order. -/
def Recorded (past : List Deed) (now : Instant) (id : String) : Option Device → Prop
  | none => ¬ Stands past id
  | some r => Stands past id ∧ id ≠ "" ∧ r.localId = id ∧ Tells past r ∧
    r.createdAt.atMost r.updatedAt ∧ r.updatedAt.atMost now

namespace Recorded

variable {now : Instant} {found : Option Device} {user : String}

/-- Time goes by, and nothing is done. -/
theorem later {soon : Instant} (h : Recorded past now id found) (hsoon : now.atMost soon) :
    Recorded past soon id found := by
  cases found with
  | none => exact h
  | some r =>
    obtain ⟨hstands, hnamed, hid, htells, hbegan, hchanged⟩ := h
    exact ⟨hstands, hnamed, hid, htells, hbegan, Instant.atMost_trans hchanged hsoon⟩

/-- Something is done under other local ids. -/
theorem of_spares (h : Recorded past now id found) (hspares : d.operation.Spares id) :
    Recorded (past ++ [d]) now id found := by
  cases found with
  | none => exact fun hstands => h ((stands_of_spares hspares).mp hstands)
  | some r =>
    obtain ⟨hstands, hnamed, rfl, htells, htimes⟩ := h
    exact ⟨(stands_of_spares hspares).mpr hstands, hnamed, rfl, htells.of_spares hspares, htimes⟩

/-- A record is deleted. -/
theorem deleted (hsets : ∀ p, ¬ d.operation.Sets id p) (hdiscards : id ∈ d.operation.discards) :
    Recorded (past ++ [d]) now id none := by
  intro hstands
  rcases latest_append_singleton.mp hstands with ⟨p, hp⟩ | ⟨-, hkept⟩
  · exact hsets p hp
  · exact hkept hdiscards

/-- A record is written where there was none. It is visible whatever the payload says. -/
theorem created {payload : Device} (h : Recorded past now id none) (hnamed : id ≠ "")
    (hid : payload.localId = id) :
    Recorded (past ++ [⟨user, now, .set payload⟩]) now id
      (some { payload with
        createdAt := now, hidden := false, updatedAt := now, userId := user }) := by
  have hsets : (Operation.set payload).Sets payload.localId payload := ⟨rfl, rfl⟩
  subst hid
  refine ⟨latest_append_singleton.mpr (.inl ⟨payload, hsets⟩), hnamed, rfl, ?_,
    Instant.atMost_refl now, Instant.atMost_refl now⟩
  constructor
  · exact latest_append_singleton.mpr (.inl ⟨⟨payload, hsets⟩, h, rfl, rfl⟩)
  · exact latest_append_singleton.mpr (.inl ⟨payload, hsets, rfl, rfl, rfl, rfl, rfl⟩)
  · refine latest_append_singleton.mpr
      (.inl (.inl ⟨payload, hsets, fun hstands => ?_, fun _ => rfl⟩))
    exact absurd hstands h

/-- A record is written in the place of another of the same user. It keeps its owner and
its beginning. -/
theorem rewritten {payload old : Device} (h : Recorded past now id (some old))
    (howner : old.userId = user) (hid : payload.localId = id) :
    Recorded (past ++ [⟨user, now, .set payload⟩]) now id
      (some { payload with createdAt := old.createdAt, updatedAt := now, userId := user }) := by
  obtain ⟨hstands, hnamed, hold, htells, hbegan, hchanged⟩ := h
  have hsets : (Operation.set payload).Sets payload.localId payload := ⟨rfl, rfl⟩
  subst hid howner
  refine ⟨latest_append_singleton.mpr (.inl ⟨payload, hsets⟩), hnamed, rfl, ?_,
    Instant.atMost_trans hbegan hchanged, Instant.atMost_refl now⟩
  constructor
  · have hcreated := htells.created
    rw [hold] at hcreated
    exact latest_append_singleton.mpr (.inr ⟨hcreated, List.not_mem_nil⟩)
  · exact latest_append_singleton.mpr (.inl ⟨payload, hsets, rfl, rfl, rfl, rfl, rfl⟩)
  · refine latest_append_singleton.mpr
      (.inl (.inl ⟨payload, hsets, fun _ => rfl, fun hmissing => ?_⟩))
    exact absurd hstands hmissing

/-- A record is hidden, or shown. Its times are as they were. -/
theorem veiled {r : Device} (h : Recorded past now id (some r)) (hidden : Bool)
    (hop : d.operation = if hidden then .hide id else .show id) :
    Recorded (past ++ [d]) now id (some { r with hidden }) := by
  obtain ⟨hstands, hnamed, rfl, htells, htimes⟩ := h
  have hsets : ¬ ∃ p, d.operation.Sets r.localId p := by
    rintro ⟨p, hp, -⟩
    cases hidden <;> simp [hop] at hp
  have hdiscards : r.localId ∉ d.operation.discards := by
    cases hidden <;> simp [hop, Operation.discards, Operation.adopts]
  refine ⟨latest_append_singleton.mpr (.inr ⟨hstands, hdiscards⟩), hnamed, rfl, ?_, htimes⟩
  constructor
  · exact latest_append_singleton.mpr (.inr ⟨htells.created, hdiscards⟩)
  · exact latest_append_singleton.mpr (.inr ⟨htells.written, hsets⟩)
  · refine latest_append_singleton.mpr (.inl (.inr ?_))
    cases hidden with
    | false => exact .inr ⟨hop, rfl⟩
    | true => exact .inl ⟨hop, rfl⟩

end Recorded

/-! ## The store keeps what has been done -/

/-- What is prepared for a payload is a record that begins now, visible and the caller's,
or one that takes the place of the caller's old one. -/
theorem Desk.prepared_cases {token : Token} {now : Instant} {payload d : Device} {s : Store}
    (hprepared : Desk.prepared token now payload (s.read payload.localId) = .ok d) :
    (s.find? payload.localId = none ∧ d = { payload with
      createdAt := now, hidden := false, updatedAt := now, userId := token.userId }) ∨
    ∃ old, s.find? payload.localId = some old ∧ old.userId = token.userId ∧ d = { payload with
      createdAt := old.createdAt, updatedAt := now, userId := token.userId } := by
  unfold Desk.prepared at hprepared
  split at hprepared
  · rename_i old hread
    split at hprepared
    · rename_i howner
      refine .inr ⟨old, Store.find?_of_read hread, by simpa [Device.isOwnedBy] using howner, ?_⟩
      exact (Except.ok.inj hprepared).symm
    · cases hprepared
  · rename_i what hread
    exact .inl ⟨Store.find?_of_read_error hread, (Except.ok.inj hprepared).symm⟩
  · cases hprepared

namespace World

/-- Whether the store is what has been done by now, under every local id, and nothing is
put off. -/
structure Keeps (w : World) (past : List Deed) : Prop where
  recorded : ∀ id, Recorded past w.clock id (w.store.find? id)
  wait_none : w.wait = none
  nothing_waits : w.removals = []

variable {α : Type} {w : World} {token : Token} {op : Operation} {s : Store}

/-- A record that an operation has written is recorded, if it is so under its own local id
and the operation has nothing to do with others. -/
theorem recorded_insert {e : Device} (h : ∀ id, Recorded past w.clock id (w.store.find? id))
    (hspares : ∀ id, e.localId ≠ id → d.operation.Spares id)
    (hwritten : Recorded (past ++ [d]) w.clock e.localId (some e)) (id : String) :
    Recorded (past ++ [d]) w.clock id ((w.store.insert e).find? id) := by
  rw [Store.find?_insert]
  split
  · rename_i hid
    exact hid ▸ hwritten
  · rename_i hid
    exact (h id).of_spares (hspares id hid)

/-- That an operation has deleted a record is recorded, if it has nothing to do with others
and does not write this one. -/
theorem recorded_erase {deleted : String} (h : ∀ id, Recorded past w.clock id (w.store.find? id))
    (hspares : ∀ id, deleted ≠ id → d.operation.Spares id)
    (hsets : ∀ p, ¬ d.operation.Sets deleted p) (hdiscards : deleted ∈ d.operation.discards)
    (id : String) :
    Recorded (past ++ [d]) w.clock id ((w.store.erase deleted).find? id) := by
  rw [Store.find?_erase]
  split
  · rename_i hid
    exact hid ▸ Recorded.deleted hsets hdiscards
  · rename_i hid
    exact (h id).of_spares (hspares id hid)

/-- What a successful operation that is no batch does to the store is recorded. -/
theorem recorded_of_does (h : ∀ id, Recorded past w.clock id (w.store.find? id))
    (hsingle : op.parts = [op]) (hdoes : op.Does w token s) (id : String) :
    Recorded (past ++ [⟨token.userId, w.clock, op⟩]) w.clock id (s.find? id) := by
  cases op with
  | list o =>
    obtain rfl : s = w.store := hdoes
    exact (h id).of_spares (by simp [Operation.Spares, Operation.Sets, Operation.discards,
      Operation.adopts])
  | read asked =>
    obtain rfl : s = w.store := hdoes
    exact (h id).of_spares (by simp [Operation.Spares, Operation.Sets, Operation.discards,
      Operation.adopts])
  | set payload =>
    obtain ⟨hnamed, e, hprepared, rfl⟩ := hdoes
    have hspares : ∀ id, payload.localId ≠ id → (Operation.set payload).Spares id := by
      intro id hne
      simp [Operation.Spares, Operation.Sets, Operation.discards, Operation.adopts, hne]
    have hthere := h payload.localId
    rcases Desk.prepared_cases hprepared with ⟨hmissing, rfl⟩ | ⟨old, hfound, howner, rfl⟩
    · rw [hmissing] at hthere
      exact recorded_insert h hspares (hthere.created hnamed rfl) id
    · rw [hfound] at hthere
      exact recorded_insert h hspares (hthere.rewritten howner rfl) id
  | use deleted | delete deleted =>
    obtain ⟨_, -, -, rfl⟩ := hdoes
    refine recorded_erase h (fun id hne => ?_) (fun p hp => ?_) List.mem_cons_self id
    · simp [Operation.Spares, Operation.Sets, Operation.discards, Operation.adopts, hne.symm]
    · cases hp.1
  | hide veiled =>
    obtain ⟨r, hfound, -, rfl⟩ := hdoes
    have hthere := h veiled
    obtain rfl := Store.localId_of_find? hfound
    rw [hfound] at hthere
    refine recorded_insert h (fun id hne => ?_) (hthere.veiled true rfl) id
    simpa [Operation.Spares, Operation.Sets, Operation.discards, Operation.adopts] using hne
  | «show» veiled =>
    obtain ⟨r, hfound, -, rfl⟩ := hdoes
    have hthere := h veiled
    obtain rfl := Store.localId_of_find? hfound
    rw [hfound] at hthere
    refine recorded_insert h (fun id hne => ?_) (hthere.veiled false rfl) id
    simpa [Operation.Spares, Operation.Sets, Operation.discards, Operation.adopts] using hne
  | setMany ps | useMany ids | deleteMany ids | hideMany ids | showMany ids =>
    simp [Operation.parts, List.map_eq_cons_iff] at hsingle

/-- Where nothing is put off, nothing is put off by whatever the desk meets with. -/
theorem Keeps.meet_frame (h : w.Keeps past) (o : Occasion) :
    (w.meet o).wait = none ∧ (w.meet o).removals = [] := by
  have hwait : (w.meetAll [o]).wait = none := (meetAll_wait w [o]).trans h.wait_none
  refine ⟨hwait, List.eq_nil_iff_forall_not_mem.mpr fun r hr => ?_⟩
  have hlater : r ∈ (w.meetAll [o]).removals := hr
  rcases removals_meetAll hlater with hold | ⟨_, _, _, _, _, _, _, _, _, _, hconf, _⟩
  · rw [h.nothing_waits] at hold
    cases hold
  · rw [h.wait_none] at hconf
    cases hconf

/-- An operation that is no batch leaves the store as it is recorded, with the operation as
one more deed if it succeeded. -/
theorem Keeps.part (h : w.Keeps past) (token : Token) (hsingle : op.parts = [op]) :
    (w.perform token op).Keeps (past ++
      if (w.run (op.procedure token)).1.isSuccess then [⟨token.userId, w.clock, op⟩] else []) := by
  obtain ⟨hwait, hremovals⟩ := h.meet_frame (.request token op)
  have hclock : (w.perform token op).clock = w.clock := run_clock _ _
  refine ⟨fun id => ?_, hwait, hremovals⟩
  rw [hclock]
  rcases w.single_allOrNothing token hsingle with ⟨a, v, hrun, hdoes⟩ | ⟨hnever, hkept⟩
  · have hperform : w.perform token op = v := congrArg Prod.snd hrun
    rw [hperform, hrun]
    exact recorded_of_does h.recorded hsingle hdoes id
  · have hfails : ¬ (w.run (op.procedure token)).1.isSuccess := by
      intro hsuccess
      rcases hrun : w.run (op.procedure token) with ⟨ending, v⟩
      rw [hrun] at hsuccess
      cases ending with
      | hung => cases hsuccess
      | finished r =>
        cases r with
        | error f => cases hsuccess
        | ok a => exact hnever a v hrun
    have hstore : (w.perform token op).store = w.store := hkept
    rw [if_neg hfails, List.append_nil, hstore]
    exact h.recorded id

/-- Operations that are done in turn leave the store as it is recorded. -/
theorem Keeps.inTurn (h : w.Keeps past) (token : Token) {ops : List Operation}
    (hsingle : ∀ op ∈ ops, op.parts = [op]) :
    (w.inTurn token ops).2.Keeps (past ++ (w.inTurn token ops).1) := by
  induction ops generalizing w past with
  | nil => simpa [World.inTurn] using h
  | cons op rest ih =>
    obtain ⟨hfirst, hrest⟩ := List.forall_mem_cons.mp hsingle
    have hpart := h.part token hfirst
    rw [World.inTurn]
    split
    · rename_i hsuccess
      rw [if_pos hsuccess] at hpart
      simpa using ih hpart hrest
    · rename_i hfails
      rwa [if_neg hfails] at hpart

end World

/-- Whether the clock is never set back from what it shows. -/
def ClockAdvances (now : Instant) : List Occasion → Prop
  | [] => True
  | .setClock later :: rest => now.atMost later ∧ ClockAdvances later rest
  | .request _ _ :: rest | .pass _ :: rest => ClockAdvances now rest

namespace World

variable {w : World}

/-- Where no removal waits, nothing happens when time passes. -/
theorem pass_of_nothing_waits (hremovals : w.removals = []) (millis : Nat) :
    w.pass millis = { w with elapsed := w.elapsed + millis } := by
  simp [pass, runRemovals, hremovals]

/-- Whatever the desk meets with while the clock advances, the store stays as it is
recorded. -/
theorem Keeps.meetAll (h : w.Keeps past) {occasions : List Occasion}
    (hclock : ClockAdvances w.clock occasions) :
    (w.meetAll occasions).Keeps (past ++ w.history occasions) := by
  induction occasions generalizing w past with
  | nil =>
    rw [history, List.append_nil]
    exact h
  | cons o rest ih =>
    rw [meetAll_cons]
    cases o with
    | request token op =>
      have hafter : (w.meet (.request token op)).clock = w.clock := run_clock _ _
      have hparts : ∀ part ∈ op.parts, part.parts = [part] :=
        fun _ hpart => Operation.parts_of_mem hpart
      have hturn := h.inTurn token hparts
      rw [← perform_eq_inTurn] at hturn
      rw [history, ← List.append_assoc]
      refine ih hturn ?_
      rw [hafter]
      exact hclock
    | setClock now =>
      obtain ⟨hnow, hlater⟩ := hclock
      obtain ⟨hwait, hremovals⟩ := h.meet_frame (.setClock now)
      exact ih ⟨fun id => (h.recorded id).later hnow, hwait, hremovals⟩ hlater
    | pass millis =>
      obtain ⟨hwait, hremovals⟩ := h.meet_frame (.pass millis)
      have hpass : w.meet (.pass millis) = _ := pass_of_nothing_waits h.nothing_waits millis
      rw [hpass] at hwait hremovals
      rw [history, hpass]
      exact ih ⟨h.recorded, hwait, hremovals⟩ hclock

end World

/-! ## What a client may not say -/

/-- A payload without what a client may not say: whose the device is, since when it has
waited, and when it was changed. -/
def Device.plain (p : Device) : Device :=
  { p with userId := "", createdAt := Instant.epoch, updatedAt := Instant.epoch }

/-- An operation with plain payloads. -/
def Operation.plain : Operation → Operation
  | set p => set p.plain
  | setMany ps => setMany (ps.map Device.plain)
  | op => op

/-- An occasion with plain payloads. -/
def Occasion.plain : Occasion → Occasion
  | request token op => request token op.plain
  | o => o

/-- The desk does the same for a payload and the plain one. -/
theorem Desk.set_plain (token : Token) (p : Device) :
    Desk.set token p.plain = Desk.set token p := by
  have hprepared : ∀ now found,
      Desk.prepared token now p.plain found = Desk.prepared token now p found := by
    intro now found
    cases found with
    | ok old => rfl
    | error f => cases f <;> rfl
  simp only [Desk.set, hprepared]
  rfl

/-- A procedure is run for each of some items that are made from others. -/
theorem Procedure.each_map {α β γ : Type} (p : β → Procedure (Except Failure γ)) (f : α → β)
    (items : List α) :
    Procedure.each p (items.map f) = Procedure.each (fun a => p (f a)) items := by
  induction items with
  | nil => rfl
  | cons a rest ih => rw [List.map_cons, Procedure.each, ih, Procedure.each]

/-- The desk does the same for payloads and the plain ones. -/
theorem Desk.setMany_plain (token : Token) (ps : List Device) :
    Desk.setMany token (ps.map Device.plain) = Desk.setMany token ps := by
  simp only [Desk.setMany, Procedure.each_map, Desk.set_plain]

namespace World

/-- An operation comes to the same with plain payloads. -/
theorem run_plain (w : World) (token : Token) (op : Operation) :
    w.replyTo token op.plain = w.replyTo token op ∧
      w.perform token op.plain = w.perform token op := by
  cases op with
  | set p =>
    have hreply : ∀ p, w.replyTo token (.set p) = (w.run (Desk.set token p)).1.told .record :=
      fun _ => rfl
    have hafter : ∀ p, w.perform token (.set p) = (w.run (Desk.set token p)).2 := fun _ => rfl
    rw [Operation.plain, hreply, hreply, hafter, hafter, Desk.set_plain]
    exact ⟨rfl, rfl⟩
  | setMany ps =>
    have hreply : ∀ ps, w.replyTo token (.setMany ps) =
        (w.run (Desk.setMany token ps)).1.told .records := fun _ => rfl
    have hafter : ∀ ps, w.perform token (.setMany ps) = (w.run (Desk.setMany token ps)).2 :=
      fun _ => rfl
    rw [Operation.plain, hreply, hreply, hafter, hafter, Desk.setMany_plain]
    exact ⟨rfl, rfl⟩
  | _ => exact ⟨rfl, rfl⟩

/-- A row of occasions comes to the same with plain payloads. -/
theorem meetAll_plain (w : World) (occasions : List Occasion) :
    w.replies (occasions.map Occasion.plain) = w.replies occasions ∧
      w.meetAll (occasions.map Occasion.plain) = w.meetAll occasions := by
  induction occasions generalizing w with
  | nil => exact ⟨rfl, rfl⟩
  | cons o rest ih =>
    cases o with
    | request token op =>
      obtain ⟨hreply, hafter⟩ := w.run_plain token op
      have hrest := ih (w.perform token op)
      simp only [List.map_cons, Occasion.plain, replies, meetAll_cons, meet, hreply, hafter]
      exact ⟨congrArg _ hrest.1, hrest.2⟩
    | setClock now => exact ih _
    | pass millis => exact ih _

end World

/-- **The life of a record.** At a desk that opens with an empty store and puts no removals
off, whoever asks for whatever while the clock advances, the store is what the successful
operations have made of it. A record stands under a local id if it was written after the
last deed that deleted it; then the local id is not empty and is the record's own, the
record's owner and beginning are those of the deed that created it, the last deed that
wrote it gave the time of its change and all that clients may say, whether it is hidden
was decided by the last deed that had a say in that, and its times are in order up to now.
What clients say about owners and times makes no difference to what anybody is told nor to
the store. Calls to the store and to the device manager may fail or hang at any point. -/
theorem records_follow_history (forecast : Forecast) (manager : Nat → ManagerReply)
    (clock : Instant) (occasions : List Occasion) (hclock : ClockAdvances clock occasions) :
    let opened : World := { service := { forecast }, manager, clock }
    let reached := opened.meetAll occasions
    let past := opened.history occasions
    (∀ id, (∃ r, reached.store.find? id = some r) ↔ Stands past id) ∧
    (∀ id r, reached.store.find? id = some r → id ≠ "" ∧ r.localId = id ∧ Tells past r ∧
      r.createdAt.atMost r.updatedAt ∧ r.updatedAt.atMost reached.clock) ∧
    ∀ others, others.map Occasion.plain = occasions.map Occasion.plain →
      opened.replies others = opened.replies occasions ∧ opened.meetAll others = reached := by
  intro opened reached past
  have hopens : opened.Keeps [] := ⟨fun _ => not_latest_nil, rfl, rfl⟩
  have hkeeps : reached.Keeps past := hopens.meetAll hclock
  refine ⟨fun id => ?_, fun id r hfound => ?_, fun others hsame => ?_⟩
  · have hrecorded := hkeeps.recorded id
    cases hfound : reached.store.find? id with
    | none =>
      rw [hfound] at hrecorded
      exact ⟨fun ⟨r, hr⟩ => absurd hr (Option.some_ne_none r).symm, fun h => absurd h hrecorded⟩
    | some r =>
      rw [hfound] at hrecorded
      exact ⟨fun _ => hrecorded.1, fun _ => ⟨r, rfl⟩⟩
  · have hrecorded := hkeeps.recorded id
    rw [hfound] at hrecorded
    exact hrecorded.2
  · obtain ⟨hreplies, hafter⟩ := opened.meetAll_plain others
    obtain ⟨hreplies', hafter'⟩ := opened.meetAll_plain occasions
    rw [hsame] at hreplies hafter
    exact ⟨hreplies.symm.trans hreplies', hafter.symm.trans hafter'⟩

/-- The token of the owner of a lamp. -/
def ownerToken : Token := ⟨"Bearer owner", "owner", Instant.epoch⟩

/-- A lamp is written by its owner as a hidden one that belongs to somebody else, and once
more as a hidden one when the clock has moved on. -/
def lampLife : List Occasion :=
  [.request ownerToken (.set
     { Device.named "d1" "lamp" with
       hidden := true, userId := "other", createdAt := Instant.last }),
   .setClock Instant.last,
   .request ownerToken (.set { Device.named "d1" "old lamp" with hidden := true })]

/-- The lamp's record is the owner's, began at first, changed at last and is hidden by now,
as the deeds say. -/
theorem lamp_follows_history :
    ClockAdvances Instant.epoch lampLife ∧
    ∃ r, (({} : World).meetAll lampLife).store.find? "d1" = some r ∧
      r = { Device.named "d1" "old lamp" with
        hidden := true, userId := "owner", createdAt := Instant.epoch, updatedAt := Instant.last } ∧
      Tells (({} : World).history lampLife) r := by
  have hclock : ClockAdvances Instant.epoch lampLife := ⟨by decide, trivial⟩
  have hfound : (({} : World).meetAll lampLife).store.find? "d1" =
      some { Device.named "d1" "old lamp" with
        hidden := true, userId := "owner", createdAt := Instant.epoch,
        updatedAt := Instant.last } := by decide
  have hrecords := (records_follow_history Forecast.fair (fun _ => .accepted) Instant.epoch
    lampLife hclock).2.1 "d1" _ hfound
  exact ⟨hclock, _, hfound, rfl, hrecords.2.2.1⟩

end WaitingRoom
