import Mathlib.Data.List.Sort
import WaitingRoom.Proofs.Store.Lookup

/-!
# Writing many records

A store is what is found in it. Writing records that ascend by local id over a store
leaves each of them under its own local id and everything else as it was.
-/

namespace WaitingRoom

namespace Device

instance : Std.Irrefl precedes := ⟨fun d => String.lt_irrefl d.localId⟩

instance : Std.Antisymm precedes :=
  ⟨fun _ _ hab hba => absurd (String.lt_trans hab hba) (String.lt_irrefl _)⟩

/-- Records that ascend by local id are told apart by it. -/
theorem nodup_localIds {records : List Device} (h : records.Pairwise precedes) :
    (records.map localId).Nodup := by
  rw [List.nodup_iff_pairwise_ne, List.pairwise_map]
  exact h.imp fun hlt => String.ne_of_lt hlt

/-- What is found in ascending records under the local id of one of them is that one. -/
theorem find?_of_mem {records : List Device} {d : Device} (hsorted : records.Pairwise precedes)
    (hmem : d ∈ records) : records.find? (fun e => e.localId == d.localId) = some d :=
  Store.find?_of_mem (s := ⟨records, hsorted⟩) hmem

end Device

namespace Store

/-- The records of a store are those that are found in it. -/
theorem mem_records_iff {s : Store} {d : Device} : d ∈ s.records ↔ s.find? d.localId = some d :=
  ⟨find?_of_mem, mem_of_find?⟩

/-- Two stores are the same if the same is found in them under every local id. -/
theorem ext_find? {s t : Store} (h : ∀ id, s.find? id = t.find? id) : s = t := by
  apply Store.ext
  apply List.Pairwise.eq_of_mem_iff s.sorted t.sorted
  intro d
  rw [mem_records_iff, mem_records_iff, h]

/-- Writing a record that is there already changes nothing. -/
theorem insert_of_mem {s : Store} {d : Device} (hmem : d ∈ s.records) : s.insert d = s := by
  apply ext_find?
  intro id
  rw [find?_insert]
  split
  · rename_i hid
    rw [← hid, find?_of_mem hmem]
  · rfl

/-- Writes records in order. -/
def insertAll (s : Store) (records : List Device) : Store := records.foldl insert s

@[simp] theorem insertAll_cons (s : Store) (d : Device) (records : List Device) :
    s.insertAll (d :: records) = (s.insert d).insertAll records := rfl

theorem insertAll_append (s : Store) (first second : List Device) :
    s.insertAll (first ++ second) = (s.insertAll first).insertAll second :=
  List.foldl_append

/-- What is found after ascending records were written: one of them, or what was found
before. -/
theorem find?_insertAll (s : Store) {records : List Device}
    (hsorted : records.Pairwise Device.precedes) (id : String) :
    (s.insertAll records).find? id =
      (records.find? fun d => d.localId == id).or (s.find? id) := by
  induction records generalizing s with
  | nil => rfl
  | cons d rest ih =>
    obtain ⟨hfirst, hrest⟩ := List.pairwise_cons.mp hsorted
    rw [insertAll_cons, ih _ hrest, find?_insert]
    by_cases hid : d.localId = id
    · have hlater : rest.find? (fun e => e.localId == id) = none := by
        rw [List.find?_eq_none]
        intro e he
        have hne : d.localId ≠ e.localId := String.ne_of_lt (hfirst e he)
        simp [← hid, Ne.symm hne]
      simp [hlater, hid]
    · simp [hid]

/-- Writing records that are there already changes nothing. -/
theorem insertAll_of_subset {s : Store} {records : List Device} (h : records ⊆ s.records) :
    s.insertAll records = s := by
  induction records with
  | nil => rfl
  | cons d rest ih =>
    obtain ⟨hd, hrest⟩ := List.cons_subset.mp h
    rw [insertAll_cons, insert_of_mem hd, ih hrest]

/-- Whatever of some ascending records was written before, writing all of them leaves the
same. -/
theorem insertAll_insertAll_of_sublist (s : Store) {part records : List Device}
    (hsorted : records.Pairwise Device.precedes) (hpart : part.Sublist records) :
    (s.insertAll part).insertAll records = s.insertAll records := by
  apply ext_find?
  intro id
  rw [find?_insertAll _ hsorted, find?_insertAll _ hsorted,
    find?_insertAll _ (hsorted.sublist hpart)]
  cases hrecords : records.find? (fun d => d.localId == id) with
  | some d => rfl
  | none =>
    have hnone : part.find? (fun d => d.localId == id) = none := by
      rw [List.find?_eq_none] at hrecords ⊢
      exact fun e he => hrecords e (hpart.subset he)
    rw [hnone]
    rfl

/-- Of two beginnings of ascending records, written one after the other, the longer one
counts. -/
theorem insertAll_take_insertAll_take (s : Store) {records : List Device}
    (hsorted : records.Pairwise Device.precedes) (first second : Nat) :
    (s.insertAll (records.take first)).insertAll (records.take second) =
      s.insertAll (records.take (max first second)) := by
  rcases Nat.le_total first second with hle | hle
  · rw [Nat.max_eq_right hle]
    apply insertAll_insertAll_of_sublist _ (hsorted.sublist (List.take_sublist ..))
    exact List.take_sublist_take_left hle
  · rw [Nat.max_eq_left hle]
    apply ext_find?
    intro id
    have hpart : (records.take second).Sublist (records.take first) :=
      List.take_sublist_take_left hle
    rw [insertAll_of_subset]
    intro d hd
    rw [mem_records_iff, find?_insertAll _ (hsorted.sublist (List.take_sublist ..)),
      Device.find?_of_mem (hsorted.sublist (List.take_sublist ..)) (hpart.subset hd)]
    rfl

end Store

end WaitingRoom
