import WaitingRoom.Store

/-!
# What is found in a store

A store holds at most one record for each local id, so it is known once it is
known what is found under every local id. Writing and deleting a record change
what is found under its own local id and nothing else.
-/

namespace WaitingRoom

namespace Device

/-- Looking up a local id after a record was put in its place: the record is found
under its own local id, and every other local id is as before. -/
theorem find?_insertInto (d : Device) (records : List Device) (id : String) :
    (insertInto d records).find? (fun e => e.localId == id) =
      if d.localId = id then some d else records.find? (fun e => e.localId == id) := by
  induction records with
  | nil => by_cases hid : d.localId = id <;> simp [insertInto, hid]
  | cons e rest ih =>
    rw [insertInto]
    split
    · by_cases hid : d.localId = id <;> simp [hid]
    · split
      · rename_i hlt
        have hne : e.localId ≠ d.localId := fun h => String.lt_irrefl _ (h ▸ hlt)
        by_cases hid : e.localId = id
        · have hd : d.localId ≠ id := fun h => hne (hid.trans h.symm)
          simp [hid, hd]
        · simp [hid, ih]
      · rename_i hde hed
        have hsame : d.localId = e.localId := String.le_antisymm hed hde
        by_cases hid : e.localId = id <;> simp [hsame, hid]

end Device

namespace Store

/-- What is found under a local id has that local id. -/
theorem localId_of_find? {s : Store} {id : String} {d : Device} (hfind : s.find? id = some d) :
    d.localId = id := by
  have h := List.find?_some hfind
  simpa using h

/-- What is found is one of the records. -/
theorem mem_of_find? {s : Store} {id : String} {d : Device} (hfind : s.find? id = some d) :
    d ∈ s.records := List.mem_of_find?_eq_some hfind

/-- Every record is found under its local id. The local ids ascend, so no other record
can be found in its place. -/
theorem find?_of_mem {s : Store} {d : Device} (hmem : d ∈ s.records) :
    s.find? d.localId = some d := by
  obtain ⟨records, hsorted⟩ := s
  unfold find?
  induction records with
  | nil => cases hmem
  | cons e rest ih =>
    obtain ⟨hfirst, hrest⟩ := List.pairwise_cons.mp hsorted
    rcases List.mem_cons.mp hmem with rfl | hmem
    · simp
    · have hlt : e.localId < d.localId := hfirst d hmem
      have hne : e.localId ≠ d.localId := fun h => String.lt_irrefl _ (h ▸ hlt)
      rw [List.find?_cons_of_neg (by simpa using hne)]
      exact ih hrest hmem

/-- A written record is found under its local id; nothing else changes. -/
theorem find?_insert (s : Store) (d : Device) (id : String) :
    (s.insert d).find? id = if d.localId = id then some d else s.find? id :=
  Device.find?_insertInto d s.records id

/-- Nothing is found under a deleted local id; nothing else changes. -/
theorem find?_erase (s : Store) (deleted id : String) :
    (s.erase deleted).find? id = if deleted = id then none else s.find? id := by
  unfold find? erase
  rw [List.find?_filter]
  by_cases hid : deleted = id
  · rw [if_pos hid, List.find?_eq_none]
    intro d _
    simp [hid]
  · rw [if_neg hid]
    congr 1
    funext d
    by_cases hd : d.localId = id
    · simp [hd, Ne.symm hid]
    · simp [hd]

/-- A read that succeeds answers what is found. -/
theorem find?_of_read {s : Store} {id : String} {d : Device} (hread : s.read id = .ok d) :
    s.find? id = some d := by
  unfold read at hread
  split at hread
  · rename_i e hfind
    rw [hfind, Except.ok.inj hread]
  · cases hread

/-- A read that fails finds nothing. -/
theorem find?_of_read_error {s : Store} {id : String} {f : Failure}
    (hread : s.read id = .error f) : s.find? id = none := by
  unfold read at hread
  split at hread
  · cases hread
  · assumption

end Store

end WaitingRoom
