import WaitingRoom.Mongo.Archive
import WaitingRoom.Postgres.Archive
import WaitingRoom.Proofs.Mongo.Holding
import WaitingRoom.Proofs.Postgres.Table
import WaitingRoom.Proofs.Store.Overlay
import WaitingRoom.Proofs.Store.Ranking

/-!
# Databases keep what is written

A table and a collection keep the records of a store through whatever is written and deleted:
told of the same changes, they hold one row, or one document, for each record of the store.
-/

namespace WaitingRoom

namespace Store

/-- The records of a store are all different. -/
theorem nodup_records (s : Store) : s.records.Nodup :=
  (Device.nodup_localIds s.sorted).of_map

/-- A record that is written stands beside those with other local ids. -/
theorem insert_perm (s : Store) (d : Device) :
    (s.insert d).records.Perm (d :: (s.erase d.localId).records) := by
  have hgone : d ∉ (s.erase d.localId).records := by
    rw [mem_records_iff, find?_erase, if_pos rfl]
    nofun
  apply (List.perm_ext_iff_of_nodup (nodup_records _)
    (List.nodup_cons.mpr ⟨hgone, nodup_records _⟩)).mpr
  intro e
  rw [mem_records_iff, List.mem_cons, mem_records_iff, find?_insert, find?_erase]
  by_cases hid : d.localId = e.localId
  · rw [if_pos hid, if_pos hid]
    simp [eq_comm]
  · rw [if_neg hid, if_neg hid]
    simp only [iff_or_self]
    rintro rfl
    exact absurd rfl hid

end Store

section Rows

open Postgres

variable {table : Table} {s : Store}

/-- The rows with other local ids than one are those of the records that are left once it is
deleted. -/
theorem Postgres.Table.Keeps.erase (h : table.Keeps s) (id : String) :
    Table.Keeps (table.filter fun row => !(row .localId).isEqual (.text id)) (s.erase id) := by
  apply Store.filter_perm h
  intro d _
  change (!decide (Datum.text d.localId = Datum.text id)) = (!(d.localId == id))
  by_cases hid : d.localId = id <;> simp [hid]

/-- A table keeps a record that is written to it, in place of the one with its local id. -/
theorem Postgres.Table.Keeps.write (h : table.Keeps s) (d : Device) :
    ∃ after : Table, (Postgres.write d).run Table.serve table = (some (.ok ()), after) ∧
      after.Keeps (s.insert d) := by
  refine ⟨_, rfl, ?_⟩
  change Table.Keeps (Table.boundRow _ :: table.filter fun row =>
    !(row .localId).isEqual (Table.boundRow _ .localId)) _
  rw [Table.boundRow_ofDevice]
  exact ((h.erase d.localId).cons (Row.ofDevice d)).trans ((s.insert_perm d).symm.map _)

/-- A table keeps all records but the one it is told to delete. -/
theorem Postgres.Table.Keeps.remove (h : table.Keeps s) (id : String) :
    ∃ after : Table, (Postgres.remove id).run Table.serve table = (some (.ok ()), after) ∧
      after.Keeps (s.erase id) := by
  have hmet : (fun row => !List.all [Condition.equals .localId 1] (Condition.isMet
      (Query.bound { statement := .delete [.equals .localId 1], values := [.text id] }) row)) =
        fun row : Row => !(row .localId).isEqual (.text id) := by
    funext row
    rw [List.all_cons, List.all_nil, Bool.and_true]
    rfl
  refine ⟨_, rfl, ?_⟩
  rw [hmet]
  exact h.erase id

end Rows

section Documents

open Mongo

variable {words : String → Value → Bool} {holding : Holding} {s : Store}

/-- The filter that a record is looked up by is met by its own document only. -/
theorem Mongo.isMet_localId (id : String) (d : Device) :
    Holding.isMet words [.hasText .localId id] (Document.ofDevice d) = (d.localId == id) := by
  rw [Holding.isMet, List.all_cons, List.all_nil, Bool.and_true]
  change (some d.localId == some id) = (d.localId == id)
  by_cases hid : d.localId = id <;> simp [hid]

/-- The documents with other local ids than one are those of the records that are left once it
is deleted. -/
theorem Mongo.Holding.Keeps.erase (h : holding.Keeps s) (id : String) :
    Holding.Keeps
      (holding.filter fun document => !Holding.isMet words [.hasText .localId id] document)
      (s.erase id) :=
  Store.filter_perm h fun d _ => congrArg not (isMet_localId id d)

/-- Where no two documents meet a filter, the one that is put in place of the first stands
beside those that do not meet it. -/
theorem Mongo.Holding.replace_perm {filter : List Condition} {document : Value}
    (hone : holding.Pairwise fun a b =>
      Holding.isMet words filter a → ¬Holding.isMet words filter b) :
    (holding.replace words filter document).Perm
      (document :: List.filter (fun first => !Holding.isMet words filter first) holding) := by
  induction holding with
  | nil => exact .refl _
  | cons first rest ih =>
    obtain ⟨hfirst, hrest⟩ := List.pairwise_cons.mp hone
    rw [Holding.replace]
    split
    · rename_i hmet
      have hothers : (rest.filter fun first => !Holding.isMet words filter first) = rest :=
        List.filter_eq_self.mpr fun later hlater => by simpa using hfirst later hlater hmet
      rw [List.filter_cons_of_neg (by simpa using hmet), hothers]
    · rename_i hmet
      rw [List.filter_cons_of_pos (by simpa using hmet)]
      exact ((ih hrest).cons first).trans (.swap ..)

/-- A collection keeps a record that is written to it, in place of the one with its local id. -/
theorem Mongo.Holding.Keeps.write (h : holding.Keeps s) (d : Device) :
    ∃ after : Holding,
      (Mongo.write d).run (Holding.serve words) holding = (some (.ok ()), after) ∧
        after.Keeps (s.insert d) := by
  have hone : holding.Pairwise fun a b => Holding.isMet words [.hasText .localId d.localId] a →
      ¬Holding.isMet words [.hasText .localId d.localId] b := by
    refine (List.Perm.pairwise_iff (fun hab hb ha => hab ha hb) h).mpr ?_
    rw [List.pairwise_map]
    refine s.sorted.imp fun {a b} hab ha hb => ?_
    rw [isMet_localId] at ha hb
    exact String.ne_of_lt hab ((eq_of_beq ha).trans (eq_of_beq hb).symm)
  refine ⟨_, rfl, ?_⟩
  exact (Holding.replace_perm hone).trans
    (((h.erase d.localId).cons (Document.ofDevice d)).trans ((s.insert_perm d).symm.map _))

/-- A collection keeps all records but the one it is told to delete. -/
theorem Mongo.Holding.Keeps.remove (h : holding.Keeps s) (id : String) :
    ∃ after : Holding,
      (Mongo.remove id).run (Holding.serve words) holding = (some (.ok ()), after) ∧
        after.Keeps (s.erase id) :=
  ⟨_, rfl, h.erase id⟩

end Documents

/-- What changes the records: one is written, or deleted. -/
inductive Edit
  | write (d : Device)
  | remove (id : String)

namespace Edit

/-- What a change makes of a store. -/
def toStore (s : Store) : Edit → Store
  | write d => s.insert d
  | remove id => s.erase id

/-- What it makes of a table that is told of it. -/
def toTable (table : Postgres.Table) : Edit → Postgres.Table
  | write d => ((Postgres.write d).run Postgres.Table.serve table).2
  | remove id => ((Postgres.remove id).run Postgres.Table.serve table).2

/-- What it makes of a collection that is told of it. -/
def toHolding (words : String → Mongo.Value → Bool) (holding : Mongo.Holding) :
    Edit → Mongo.Holding
  | write d => ((Mongo.write d).run (Mongo.Holding.serve words) holding).2
  | remove id => ((Mongo.remove id).run (Mongo.Holding.serve words) holding).2

theorem keeps_toTable {table : Postgres.Table} {s : Store} (h : table.Keeps s) (e : Edit) :
    (e.toTable table).Keeps (e.toStore s) := by
  cases e with
  | write d =>
    obtain ⟨after, hrun, hafter⟩ := h.write d
    rwa [toTable, hrun]
  | remove id =>
    obtain ⟨after, hrun, hafter⟩ := h.remove id
    rwa [toTable, hrun]

theorem keeps_toHolding {words : String → Mongo.Value → Bool} {holding : Mongo.Holding} {s : Store}
    (h : holding.Keeps s) (e : Edit) : (e.toHolding words holding).Keeps (e.toStore s) := by
  cases e with
  | write d =>
    obtain ⟨after, hrun, hafter⟩ := h.write d
    rwa [toHolding, hrun]
  | remove id =>
    obtain ⟨after, hrun, hafter⟩ := h.remove id
    rwa [toHolding, hrun]

/-- Told of all changes, a table and a collection go on keeping the records. -/
theorem keeps_foldl {words : String → Mongo.Value → Bool} {table : Postgres.Table}
    {holding : Mongo.Holding} {s : Store} (htable : table.Keeps s) (hholding : holding.Keeps s)
    (edits : List Edit) :
    (edits.foldl toTable table).Keeps (edits.foldl toStore s) ∧
      (edits.foldl (toHolding words) holding).Keeps (edits.foldl toStore s) := by
  induction edits generalizing table holding s with
  | nil => exact ⟨htable, hholding⟩
  | cons e edits ih => exact ih (keeps_toTable htable e) (keeps_toHolding hholding e)

end Edit

end WaitingRoom
