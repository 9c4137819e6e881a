import WaitingRoom.Desk.Operations
import WaitingRoom.Desk.World
import WaitingRoom.Proofs.Backend.Keeping
import WaitingRoom.Proofs.Backend.Passing
import WaitingRoom.Proofs.Desk.Rights

/-!
# The desk on its archives

Whatever keeps the records, the desk makes the same calls of it. A record that was just
written is read as what the archive makes of it: in memory as it is, in a collection with its
times in whole milliseconds, in a table with its times in whole microseconds and with a list
of attributes. What the desk answers to a write was put together before, so it is the record
as it was sent to the archive.
-/

namespace WaitingRoom

open Time (Instant)

/-- How the calls for records are answered in some state; nothing if an answer never comes. -/
structure Archive (σ : Type) where
  read : String → σ → Option (Except Failure Device) × σ
  write : Device → σ → Option (Except Failure Unit) × σ
  remove : String → σ → Option (Except Failure Unit) × σ
  list : String → ListOptions → σ → Option (Except Failure (List Device × Int)) × σ

namespace Archive

variable {σ α : Type}

/-- The records in memory. -/
def memory : Archive Store where
  read id s := (some (s.read id), s)
  write d s := (some (.ok ()), s.insert d)
  remove id s := (some (.ok ()), s.erase id)
  list user o s := (some (s.list user o), s)

/-- The documents of a collection. -/
def collection (words : String → Mongo.Value → Bool) : Archive Mongo.Holding where
  read id := (Mongo.read id).run (Mongo.Holding.serve words)
  write d := (Mongo.write d).run (Mongo.Holding.serve words)
  remove id := (Mongo.remove id).run (Mongo.Holding.serve words)
  list user o := (Mongo.list user o).run (Mongo.Holding.serve words)

/-- The rows of a table. -/
def table : Archive Postgres.Table where
  read id := (Postgres.read id).run Postgres.Table.serve
  write d := (Postgres.write d).run Postgres.Table.serve
  remove id := (Postgres.remove id).run Postgres.Table.serve
  list user o := (Postgres.list user o).run Postgres.Table.serve

/-- Runs a procedure until it ends or a call is never answered. The archive answers the calls
for records, the world all others. -/
def run (archive : Archive σ) : Procedure α → World → σ → Ending α × World × σ
  | .done a, w, s => (.finished a, w, s)
  | .now next, w, s => archive.run (next w.clock) w s
  | .read id next, w, s =>
    match archive.read id s with
    | (some r, s) => archive.run (next r) w s
    | (none, s) => (.hung, w, s)
  | .write d next, w, s =>
    match archive.write d s with
    | (some r, s) => archive.run (next r) w s
    | (none, s) => (.hung, w, s)
  | .remove id next, w, s =>
    match archive.remove id s with
    | (some r, s) => archive.run (next r) w s
    | (none, s) => (.hung, w, s)
  | .list user o next, w, s =>
    match archive.list user o s with
    | (some r, s) => archive.run (next r) w s
    | (none, s) => (.hung, w, s)
  | .adopt t d next, w, s =>
    match w.adoptCall t d with
    | (some r, w) => archive.run (next r) w s
    | (none, w) => (.hung, w, s)
  | .removeLater id next, w, s => archive.run next (w.removeLater id) s
  | .notify user e next, w, s => archive.run next (w.notify user e) s

/-- A store whose calls are all answered. -/
def answering (s : Store) (made : CallCounts) : StoreService := ⟨s, .fair, made⟩

/-- Where all calls for records are answered, the world of the desk is one with its records in
memory. -/
theorem run_memory (p : Procedure α) (w : World) (s : Store) (made : CallCounts) :
    ∃ later, { w with service := answering s made }.run p =
      ((memory.run p w s).1,
        { (memory.run p w s).2.1 with service := answering (memory.run p w s).2.2 later }) := by
  induction p generalizing w s made with
  | done => exact ⟨made, rfl⟩
  | now next ih => exact ih w.clock w s made
  | read id next ih => exact ih _ w s _
  | write d next ih => exact ih _ w _ _
  | remove id next ih => exact ih _ w _ _
  | list user o next ih => exact ih _ w s _
  | adopt t d next ih =>
    simp only [World.run, run, World.adoptCall]
    cases hreply : w.manager w.asked with
    | accepted =>
      exact ih (.ok ()) { w with asked := w.asked + 1, adopted := w.adopted ++ [⟨t, d⟩] } s made
    | declined f => exact ih (.error f) { w with asked := w.asked + 1 } s made
    | hanging => exact ⟨made, rfl⟩
  | removeLater id next ih =>
    have hservice : World.removeLater { w with service := answering s made } id =
        { w.removeLater id with service := answering s made } := by
      obtain ⟨_, _, _, _, wait, _, _, _, _⟩ := w
      cases wait <;> rfl
    rw [World.run, hservice]
    exact ih (w.removeLater id) s made
  | notify user e next ih => exact ih (w.notify user e) s made

end Archive

/-! ## What was written is read -/

namespace Mongo

variable {words : String → Value → Bool} {filter : List Condition} {document : Value}

/-- A document that takes the place of the first to meet a filter is itself the first to meet
it. -/
theorem Holding.filter_replace (hmet : Holding.isMet words filter document) (holding : Holding) :
    ∃ more, (holding.replace words filter document).filter (Holding.isMet words filter) =
      document :: more := by
  induction holding with
  | nil => exact ⟨[], List.filter_cons_of_pos hmet⟩
  | cons first rest ih =>
    rw [Holding.replace]
    split
    · exact ⟨_, List.filter_cons_of_pos hmet⟩
    · rename_i hfirst
      rw [List.filter_cons_of_neg hfirst]
      exact ih

/-- Documents are found in the order they are kept in unless another is asked for. -/
theorem Holding.inOrder_nil (documents : List Value) : Holding.inOrder documents [] = documents :=
  List.mergeSort_of_pairwise (List.pairwise_of_forall fun _ _ => rfl)

/-- The document that is found once it was put in place of another. -/
theorem Holding.serve_find_replace (hmet : Holding.isMet words filter document)
    (holding : Holding) :
    Holding.serve words (.find filter [] none 1) (holding.replace words filter document) =
      (some (.documents [document]), holding.replace words filter document) := by
  obtain ⟨more, hfound⟩ := Holding.filter_replace hmet holding
  simp only [Holding.serve, Holding.carryOut, hfound, Holding.inOrder_nil]
  rfl

end Mongo

namespace Postgres

/-- Rows are selected in the order they are kept in unless another is asked for. -/
theorem Table.inOrder_nil (rows : List Row) : Table.inOrder rows [] = rows :=
  List.mergeSort_of_pairwise (List.pairwise_of_forall fun _ _ => rfl)

/-- The rows that are selected by their local id. -/
theorem Table.serve_read (id : String) (table : Table) :
    Table.serve { statement := .select [.equals .localId 1] [] none, values := [.text id] } table =
      (some (.rows (table.filter fun row => (row .localId).isEqual (.text id))), table) := by
  have hmet (bound : Nat → Datum) (hbound : bound 1 = .text id) :
      table.meeting bound [.equals .localId 1] =
        table.filter fun row => (row .localId).isEqual (.text id) := by
    simp only [Table.meeting, Condition.isMet, hbound, List.all_cons, List.all_nil, Bool.and_true]
  rw [Table.serve_select rfl rfl, Table.inOrder_nil, hmet _ rfl]
  rfl

end Postgres

namespace Archive

variable {σ : Type} {archive : Archive σ} {back : Device → Except Failure Device}

/-- What was just written is read as the archive makes of it. -/
def ReadsBack (archive : Archive σ) (back : Device → Except Failure Device) : Prop :=
  ∀ (d : Device) (s after : σ), archive.write d s = (some (.ok ()), after) →
    (archive.read d.localId after).1 = some (back d)

/-- Memory holds a record as it is. -/
theorem readsBack_memory : memory.ReadsBack .ok := by
  rintro d s after hwrite
  obtain ⟨-, rfl⟩ := Prod.mk.inj hwrite
  change some (Store.read _ _) = _
  rw [Store.read, Store.find?_insert, if_pos rfl]

/-- A collection holds whole milliseconds, whatever else is in it. -/
theorem readsBack_collection (words : String → Mongo.Value → Bool) :
    (collection words).ReadsBack fun d => .ok d.inMillis := by
  rintro d holding after hwrite
  obtain ⟨-, rfl⟩ := Prod.mk.inj hwrite
  have hmet : Mongo.Holding.isMet words [.hasText .localId d.localId]
      (Mongo.Document.ofDevice d) := by
    rw [Mongo.isMet_localId]
    exact beq_self_eq_true _
  change ((Mongo.read d.localId).run (Mongo.Holding.serve words) (holding.replace words
    [.hasText .localId d.localId] (Mongo.Document.ofDevice d))).1 = _
  rw [Mongo.read, Dialogue.run, Mongo.Holding.serve_find_replace hmet]
  simp only [Mongo.device?_ofDevice, Dialogue.run]
  rfl

/-- What a table makes of a record. -/
def rowBack (d : Device) : Except Failure Device :=
  match (Postgres.Row.ofDevice d).device? with
  | some e => .ok e
  | none => .error Postgres.fault

theorem rowBack_of_isTimely {d : Device} (h : d.IsTimely) : rowBack d = .ok d.inMicros := by
  have hkept : (Postgres.Row.ofDevice d).device? = some d.inMicros :=
    Postgres.device?_ofDevice (Instant.isWhole_inMicros h.1).1 (Instant.isWhole_inMicros h.2).1
  rw [rowBack, hkept]

/-- A table holds one row for a local id, the one written last, whatever rows it had before. -/
theorem readsBack_table : table.ReadsBack rowBack := by
  rintro d rows after hwrite
  have hafter : after = Postgres.Row.ofDevice d :: rows.filter fun row =>
      !(row .localId).isEqual (Postgres.Row.ofDevice d .localId) := by
    rw [← Postgres.Table.boundRow_ofDevice]
    exact (Prod.mk.inj hwrite).2.symm
  have hfound : (after.filter fun row => (row .localId).isEqual (.text d.localId)) =
      [Postgres.Row.ofDevice d] := by
    rw [hafter, List.filter_cons_of_pos (by simp [Postgres.Datum.isEqual, Postgres.Row.ofDevice]),
      List.filter_filter]
    simp [Postgres.Row.ofDevice]
  change ((Postgres.read d.localId).run Postgres.Table.serve _).1 = _
  rw [Postgres.read, Dialogue.run, Postgres.Table.serve_read, hfound, rowBack]
  simp only []
  cases (Postgres.Row.ofDevice d).device? <;> rfl

/-! ## What the desk answers -/

variable {token : Token} {payload d : Device} {w v : World} {s after : σ}

/-- A successful write: the record was put together from what was found, and the archive took
it. -/
theorem write_of_run_set
    (h : archive.run (Desk.set token payload) w s = (.finished (.ok d), v, after)) :
    ∃ found between, archive.read payload.localId s = (some found, between) ∧
      Desk.prepared token w.clock payload found = .ok d ∧
      archive.write d between = (some (.ok ()), after) := by
  rw [Desk.set] at h
  split at h
  · cases h
  · simp only [run] at h
    split at h
    · rename_i found between hread
      refine ⟨found, between, hread, ?_⟩
      split at h
      · cases h
      · rename_i e hprepared
        simp only [Desk.store, Procedure.andThen, Procedure.bind, run] at h
        split at h
        · rename_i written later hwrite
          cases written with
          | error f => cases h
          | ok =>
            obtain ⟨hresult, hrest⟩ := Prod.mk.inj h
            cases hresult
            cases hrest
            exact ⟨hprepared, hwrite⟩
        · cases h
    · cases h

/-- A record that can be put together from what is found, and that the archive takes, is
answered. -/
theorem run_set_of_write {found : Except Failure Device} {between : σ}
    (hid : payload.localId.isEmpty = false)
    (hread : archive.read payload.localId s = (some found, between))
    (hprepared : Desk.prepared token w.clock payload found = .ok d)
    (hwrite : archive.write d between = (some (.ok ()), after)) :
    archive.run (Desk.set token payload) w s =
      (.finished (.ok d), w.notify token.userId ⟨.set, d.localId⟩, after) := by
  rw [Desk.set, if_neg (by simp [hid])]
  simp only [run, hread, hprepared, Desk.store, Procedure.andThen, Procedure.bind, hwrite]

/-- The caller reads what the archive made of the record just written, in whatever world. -/
theorem read_of_run_set {e : Device} (hback : archive.ReadsBack back)
    (h : archive.run (Desk.set token payload) w s = (.finished (.ok d), v, after))
    (he : back d = .ok e) (hsame : e.userId = d.userId) (u : World) :
    (archive.run (Desk.read token payload.localId) u after).1 = .finished (.ok e) := by
  obtain ⟨found, between, -, hprepared, hwrite⟩ := write_of_run_set h
  obtain ⟨howner, hid, -⟩ := Desk.prepared_ok hprepared
  have hread := hback d between after hwrite
  rw [hid, he] at hread
  rcases hcall : archive.read payload.localId after with ⟨answer, later⟩
  rw [hcall] at hread
  obtain rfl : answer = some (.ok e) := hread
  have howned : Desk.owned token.userId payload.localId (.ok e) = .ok e := by
    simp [Desk.owned, Device.isOwnedBy, hsame, howner]
  rw [Desk.read, Desk.readOwned, run, hcall]
  change (archive.run (.done (Desk.owned token.userId payload.localId (.ok e))) u later).1 = _
  rw [howned, run]

/-- A record that is read from a table has its times in whole microseconds. -/
theorem isWhole_of_read_table {id : String} {rows later : Postgres.Table}
    (h : table.read id rows = (some (.ok d), later)) : d.IsWhole 1000 := by
  change (Postgres.read id).run Postgres.Table.serve rows = _ at h
  rw [Postgres.read, Dialogue.run, Postgres.Table.serve_read] at h
  simp only [] at h
  split at h
  · cases h
  · split at h
    · rename_i e hrow
      cases h
      exact Postgres.Row.isWhole_of_device? hrow
    · cases h
  · cases h

/-- What is prepared for writing is of now, or began when the record it replaces did. -/
theorem times_of_prepared {now : Instant} {found : Except Failure Device}
    (h : Desk.prepared token now payload found = .ok d) :
    d.updatedAt = now ∧
      (d.createdAt = now ∨ ∃ old, found = .ok old ∧ d.createdAt = old.createdAt) := by
  unfold Desk.prepared at h
  split at h
  · rename_i old
    split at h
    · obtain rfl := Except.ok.inj h
      exact ⟨rfl, .inr ⟨old, rfl, rfl⟩⟩
    · cases h
  · obtain rfl := Except.ok.inj h
    exact ⟨rfl, .inl rfl⟩
  · cases h

/-- A record that was written to a table has times that can be counted in microseconds, if the
clock has. -/
theorem isTimely_of_run_set {rows later : Postgres.Table} (hclock : w.clock.IsTimely)
    (h : table.run (Desk.set token payload) w rows = (.finished (.ok d), v, later)) :
    d.IsTimely := by
  obtain ⟨found, between, hread, hprepared, -⟩ := write_of_run_set h
  obtain ⟨hupdated, hcreated⟩ := times_of_prepared hprepared
  refine ⟨?_, hupdated ▸ hclock⟩
  rcases hcreated with hnow | ⟨old, rfl, hold⟩
  · exact hnow ▸ hclock
  · exact hold ▸ (isWhole_of_read_table hread).isTimely.1

/-- The answer to a successful write is what the same caller reads right after it: from memory in
every field; from a collection but for times that are no whole milliseconds; and from a table but
for times that are no whole microseconds and for a missing list of attributes, which is read as
the empty one. -/
theorem answer_to_set_is_read (token : Token) (payload : Device) (w : World) :
    (∀ s d v after, memory.run (Desk.set token payload) w s = (.finished (.ok d), v, after) →
      (memory.run (Desk.read token payload.localId) v after).1 = .finished (.ok d)) ∧
    (∀ words holding d v after,
      (collection words).run (Desk.set token payload) w holding = (.finished (.ok d), v, after) →
        ((collection words).run (Desk.read token payload.localId) v after).1 =
          .finished (.ok d.inMillis) ∧
        (d.inMillis = d ↔ d.IsWhole 1000000)) ∧
    (w.clock.IsTimely → ∀ rows d v after,
      table.run (Desk.set token payload) w rows = (.finished (.ok d), v, after) →
        (table.run (Desk.read token payload.localId) v after).1 = .finished (.ok d.inMicros) ∧
        (d.inMicros = d ↔ d.attributes.isSome ∧ d.IsWhole 1000)) := by
  refine ⟨?_, ?_, ?_⟩
  · intro s d v after h
    exact read_of_run_set readsBack_memory h rfl rfl v
  · intro words holding d v after h
    exact ⟨read_of_run_set (readsBack_collection words) h rfl rfl v, Device.inMillis_eq_self_iff⟩
  · intro hclock rows d v after h
    have hback := rowBack_of_isTimely (isTimely_of_run_set hclock h)
    exact ⟨read_of_run_set readsBack_table h hback rfl v, Device.inMicros_eq_self_iff⟩

/-- A user who sets up a lamp without a list of attributes, in the middle of a microsecond. -/
def alice : Token := { credential := "alice", userId := "alice", expiresAt := Instant.last }

def moment : Instant := Backend.roughMoment

def bareLamp : Device := Device.named "lamp" "Hall"

/-- The record that the lamp becomes. -/
def writtenLamp : Device :=
  { bareLamp with userId := "alice", createdAt := moment, updatedAt := moment }

theorem run_set_bareLamp_table : ∃ v after, table.run (Desk.set alice bareLamp)
    { clock := moment } [] = (.finished (.ok writtenLamp), v, after) := by
  have hnone : table.read "lamp" [] = (some (.error (.noDevice "lamp")), []) := by
    change (Postgres.read "lamp").run Postgres.Table.serve [] = _
    rw [Postgres.read, Dialogue.run, Postgres.Table.serve_read]
    rfl
  exact ⟨_, _, run_set_of_write (by decide) hnone rfl rfl⟩

theorem run_set_bareLamp_collection : ∃ v after,
    (collection fun _ _ => false).run (Desk.set alice bareLamp) { clock := moment } [] =
      (.finished (.ok writtenLamp), v, after) := by
  have hnone : (collection fun _ _ => false).read "lamp" [] =
      (some (.error (.noDevice "lamp")), []) := by
    change (Mongo.read "lamp").run (Mongo.Holding.serve _) [] = _
    simp only [Mongo.read, Dialogue.run, Mongo.Holding.serve, Mongo.Holding.carryOut,
      List.filter_nil, Mongo.Holding.inOrder_nil]
    rfl
  exact ⟨_, _, run_set_of_write (by decide) hnone rfl rfl⟩

theorem run_set_bareLamp_memory : ∃ v after,
    memory.run (Desk.set alice bareLamp) { clock := moment } Store.empty =
      (.finished (.ok writtenLamp), v, after) :=
  ⟨_, _, run_set_of_write (by decide) rfl rfl rfl⟩

/-- The lamp is answered as it was written. It is read from memory as that, from a collection
without the last of its microseconds, and from a table with an empty list of attributes and
without the last of its nanoseconds. -/
theorem bare_lamp_is_read_with_a_list :
    (∃ v after, memory.run (Desk.set alice bareLamp) { clock := moment } Store.empty =
        (.finished (.ok writtenLamp), v, after) ∧
      (memory.run (Desk.read alice "lamp") v after).1 = .finished (.ok writtenLamp)) ∧
    (∃ v after, (collection fun _ _ => false).run (Desk.set alice bareLamp) { clock := moment } [] =
        (.finished (.ok writtenLamp), v, after) ∧
      ((collection fun _ _ => false).run (Desk.read alice "lamp") v after).1 =
        .finished (.ok writtenLamp.inMillis)) ∧
    ∃ v after, table.run (Desk.set alice bareLamp) { clock := moment } [] =
        (.finished (.ok writtenLamp), v, after) ∧
      (table.run (Desk.read alice "lamp") v after).1 = .finished (.ok writtenLamp.inMicros) := by
  obtain ⟨hmemory, hcollection, htable⟩ := answer_to_set_is_read alice bareLamp { clock := moment }
  refine ⟨?_, ?_, ?_⟩
  · obtain ⟨v, after, hrun⟩ := run_set_bareLamp_memory
    exact ⟨v, after, hrun, hmemory _ _ v after hrun⟩
  · obtain ⟨v, after, hrun⟩ := run_set_bareLamp_collection
    exact ⟨v, after, hrun, (hcollection _ [] _ v after hrun).1⟩
  · obtain ⟨v, after, hrun⟩ := run_set_bareLamp_table
    exact ⟨v, after, hrun, (htable (by decide) [] _ v after hrun).1⟩

/-- What is answered is another record than what the same caller reads right after it, both from a
table and from a collection. -/
theorem answer_to_set_is_not_always_read :
    (∃ v after, table.run (Desk.set alice bareLamp) { clock := moment } [] =
        (.finished (.ok writtenLamp), v, after) ∧
      (table.run (Desk.read alice "lamp") v after).1 ≠ .finished (.ok writtenLamp)) ∧
    ∃ v after, (collection fun _ _ => false).run (Desk.set alice bareLamp) { clock := moment } [] =
        (.finished (.ok writtenLamp), v, after) ∧
      ((collection fun _ _ => false).run (Desk.read alice "lamp") v after).1 ≠
        .finished (.ok writtenLamp) := by
  obtain ⟨v, after, hrows⟩ := run_set_bareLamp_table
  obtain ⟨u, later, hdocuments⟩ := run_set_bareLamp_collection
  refine ⟨⟨v, after, hrows, ?_⟩, ⟨u, later, hdocuments, ?_⟩⟩
  · change (table.run (Desk.read alice bareLamp.localId) v after).1 ≠ _
    rw [read_of_run_set readsBack_table hrows (rowBack_of_isTimely (by decide)) rfl]
    decide
  · change ((collection _).run (Desk.read alice bareLamp.localId) u later).1 ≠ _
    rw [read_of_run_set (readsBack_collection _) hdocuments rfl rfl]
    decide

end Archive

end WaitingRoom
