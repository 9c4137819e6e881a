import WaitingRoom.Listing
import WaitingRoom.Text.Lowercase

/-!
# The store

The records of a waiting room, one for each local id, in ascending order of their local
ids. Writing replaces, deleting a missing record changes nothing, and a listing is a
window of the caller's matching records in the order asked for.
-/

namespace WaitingRoom

open Time (Instant)

namespace Device

/-- Whether one record comes before another by local id. -/
def precedes (a b : Device) : Prop := a.localId < b.localId

instance : DecidableRel precedes := fun a b => inferInstanceAs (Decidable (a.localId < b.localId))

/-- Puts a record in its place, where it replaces the one with the same local id. -/
def insertInto (d : Device) : List Device → List Device
  | [] => [d]
  | e :: rest =>
    if d.localId < e.localId then d :: e :: rest
    else if e.localId < d.localId then e :: insertInto d rest
    else d :: rest

theorem mem_insertInto {d x : Device} {records : List Device} (h : x ∈ insertInto d records) :
    x = d ∨ x ∈ records := by
  induction records with
  | nil => simpa [insertInto] using h
  | cons e rest ih =>
    rw [insertInto] at h
    split at h
    · simpa using h
    · split at h
      · rcases List.mem_cons.1 h with rfl | h
        · exact .inr (List.mem_cons_self ..)
        · exact (ih h).imp_right (List.mem_cons_of_mem _)
      · rcases List.mem_cons.1 h with rfl | h
        · exact .inl rfl
        · exact .inr (List.mem_cons_of_mem _ h)

/-- Putting a record in its place keeps the order. -/
theorem pairwise_insertInto (d : Device) {records : List Device}
    (h : records.Pairwise precedes) : (insertInto d records).Pairwise precedes := by
  induction records with
  | nil => exact List.pairwise_singleton _ _
  | cons e rest ih =>
    obtain ⟨first, later⟩ := List.pairwise_cons.1 h
    rw [insertInto]
    split
    · rename_i hde
      refine List.pairwise_cons.2 ⟨fun x hx => ?_, h⟩
      rcases List.mem_cons.1 hx with rfl | hx
      · exact hde
      · exact String.lt_trans hde (first x hx)
    · split
      · rename_i hed
        refine List.pairwise_cons.2 ⟨fun x hx => ?_, ih later⟩
        rcases mem_insertInto hx with rfl | hx
        · exact hed
        · exact first x hx
      · rename_i hde hed
        have same : d.localId = e.localId := String.le_antisymm hed hde
        refine List.pairwise_cons.2 ⟨fun x hx => ?_, later⟩
        have := first x hx
        unfold precedes at this ⊢
        rwa [same]

/-- How two records compare by a key. -/
def compareBy (key : SortKey) (a b : Device) : Ordering :=
  match key with
  | .localId => compare a.localId b.localId
  | .name => compare a.name b.name
  | .createdAt => a.createdAt.compareTo b.createdAt
  | .updatedAt => a.updatedAt.compareTo b.updatedAt

/-- How two records compare in an order; equal keys are told apart by local id. -/
def compareIn (o : SortOrder) (a b : Device) : Ordering :=
  let byKey := compareBy o.key a b
  (if o.descending then byKey.swap else byKey).then (compare a.localId b.localId)

/-- Whether the local id or the name of a record, in lower case, has `needle` in it. -/
def mentions (d : Device) (needle : List Char) : Bool :=
  Text.occursIn needle (Text.lowerCase d.localId) || Text.occursIn needle (Text.lowerCase d.name)

/-- Whether a record counts in a listing for the user. -/
def isListed (d : Device) (user : String) (o : ListOptions) : Bool :=
  d.isOwnedBy user && (o.showHidden || !d.hidden) &&
    match o.searchTerm with
    | none => true
    | some term => d.mentions (Text.lowerCase term)

end Device

/-- The items from `offset` on, `limit` of them. A negative offset is beyond the end,
a negative limit is none. -/
def window {α : Type} (offset limit : Int) (items : List α) : List α :=
  if offset < 0 then []
  else
    let rest := items.drop offset.toNat
    if limit < 0 then rest else rest.take limit.toNat

/-- Records in ascending order of their local ids, which are therefore distinct. -/
@[ext] structure Store where
  records : List Device
  sorted : records.Pairwise Device.precedes

namespace Store

/-- The store without records. -/
def empty : Store := ⟨[], List.Pairwise.nil⟩

instance : Inhabited Store := ⟨empty⟩

/-- The number of records. -/
def size (s : Store) : Nat := s.records.length

/-- The record with the given local id. -/
def find? (s : Store) (id : String) : Option Device :=
  s.records.find? fun d => d.localId == id

/-- Writes a record, in place of the one with the same local id. -/
def insert (s : Store) (d : Device) : Store :=
  ⟨Device.insertInto d s.records, Device.pairwise_insertInto d s.sorted⟩

/-- Deletes the record with the given local id. -/
def erase (s : Store) (id : String) : Store :=
  ⟨s.records.filter fun d => d.localId != id, s.sorted.filter _⟩

/-- Reads the record with the given local id. -/
def read (s : Store) (id : String) : Except Failure Device :=
  match s.find? id with
  | some d => .ok d
  | none => .error (.noDevice id)

/-- The records that count in a listing for the user, in an order. -/
def matching (s : Store) (user : String) (o : ListOptions) (order : SortOrder) : List Device :=
  (s.records.filter fun d => d.isListed user o).mergeSort fun a b =>
    (Device.compareIn order a b).isLE

/-- A listing: the records in the window, and how many match in all. -/
def list (s : Store) (user : String) (o : ListOptions) : Except Failure (List Device × Int) := do
  let order ← o.order
  let found := s.matching user o order
  return (window o.offset o.limit found, found.length)

/-- A window of all records. -/
def exportPage (s : Store) (offset limit : Int) : List Device := window offset limit s.records

end Store

end WaitingRoom
