import WaitingRoom.Mongo.Archive
import WaitingRoom.Proofs.Mongo.Holding
import WaitingRoom.Proofs.Store.Ranking

/-!
# Listing a collection

The commands of a listing without words to search for, carried out on a collection that keeps
the records of a store, count and find what the store lists. What is found is read as the
records it was laid down from, as far as dates hold their times in full.
-/

namespace WaitingRoom.Mongo

open Time (Instant)

/-! ## Documents are read as they were laid down -/

/-- An attribute is read as it was laid down; an origin that was left out is the empty one. -/
theorem attribute?_ofAttribute (a : Attribute) :
    Document.attribute? (Document.ofAttribute a) = some a := by
  obtain ⟨key, value, origin⟩ := a
  unfold Document.ofAttribute
  split
  · rename_i horigin
    obtain rfl : origin = "" := by simpa using horigin
    rfl
  · rfl

theorem nullableList?_ofAttributes (attributes : Option (List Attribute)) :
    Value.nullableList? Document.attribute? (Document.ofAttributes attributes) =
      some attributes := by
  cases attributes with
  | none => rfl
  | some attributes =>
    rw [Document.ofAttributes, Value.nullableList?,
      mapM_map_eq_some fun a _ => attribute?_ofAttribute a]
    rfl

/-- A document is read as the record it was laid down from, with the times its dates stand
for. -/
theorem device?_ofDevice (d : Device) :
    Document.device? (Document.ofDevice d) = some { d with
      createdAt := Instant.ofMillis d.createdAt.toMillis
      updatedAt := Instant.ofMillis d.updatedAt.toMillis } := by
  have hread : Document.device? (Document.ofDevice d) =
      (Value.nullableList? Document.attribute? (Document.ofAttributes d.attributes)).bind
        fun attributes => some { d with
          attributes
          createdAt := Instant.ofMillis d.createdAt.toMillis
          updatedAt := Instant.ofMillis d.updatedAt.toMillis } := rfl
  rw [hread, nullableList?_ofAttributes]
  rfl

/-- Whole milliseconds are kept in full. -/
theorem device?_ofDevice_of_isWhole {d : Device} (h : d.IsWhole 1000000) :
    Document.device? (Document.ofDevice d) = some d := by
  rw [device?_ofDevice, Instant.ofMillis_toMillis h.1, Instant.ofMillis_toMillis h.2]

/-! ## Documents compare as records do -/

/-- Documents compare by the place of a key as the records do by the key. -/
theorem compareTo_ofDevice {a b : Device} (key : SortKey) (ha : a.IsWhole 1000000)
    (hb : b.IsWhole 1000000) :
    ((Document.ofDevice a).valueAt (pathOf key)).weight.compareTo
      ((Document.ofDevice b).valueAt (pathOf key)).weight = Device.compareBy key a b := by
  cases key with
  | localId => exact Weight.compareTo_ofText ..
  | name => exact Weight.compareTo_ofText ..
  | createdAt =>
    exact (Weight.compareTo_ofNumber ..).trans (Instant.compare_toMillis ha.1 hb.1)
  | updatedAt =>
    exact (Weight.compareTo_ofNumber ..).trans (Instant.compare_toMillis ha.2 hb.2)

/-- Documents compare in the directions of an order as the records do in the order. -/
theorem compareDocuments_ofDevice {a b : Device} (order : SortOrder) (ha : a.IsWhole 1000000)
    (hb : b.IsWhole 1000000) :
    compareDocuments (directions order) (Document.ofDevice a) (Document.ofDevice b) =
      Device.compareIn order a b := by
  have hfirst : Direction.compareDocuments ⟨pathOf order.key, order.descending⟩
      (Document.ofDevice a) (Document.ofDevice b) =
        directed order.descending (Device.compareBy order.key a b) :=
    congrArg (directed order.descending) (compareTo_ofDevice order.key ha hb)
  have hlast : Direction.compareDocuments { path := .localId } (Document.ofDevice a)
      (Document.ofDevice b) = compare a.localId b.localId := compareTo_ofDevice .localId ha hb
  unfold directions
  split
  · rename_i hkey
    rw [Device.compareIn_localId hkey]
    change Ordering.then (Direction.compareDocuments _ _ _) .eq = _
    rw [hfirst, hkey, Ordering.then_eq, Device.compareBy]
  · rw [Device.compareIn_eq, ← hfirst, ← hlast]
    change Ordering.then _ (Ordering.then _ .eq) = _
    rw [Ordering.then_eq]

/-! ## The commands of a listing -/

section Listing

variable {words : String → Value → Bool} {holding : Holding} {s : Store} {user : String}
  {o : ListOptions}

/-- A document meets the filter of a listing without words just if its record is listed. -/
theorem isMet_ofDevice (hblank : o.searchTerm = none) (d : Device) :
    Holding.isMet words (scope user o) (Document.ofDevice d) = d.isListed user o := by
  have howner : Condition.isMet words (Document.ofDevice d) (.hasText .userId user) =
      d.isOwnedBy user := by
    change (some d.userId == some user) = (d.userId == user)
    by_cases h : d.userId = user <;> simp [h]
  have hshown : Condition.isMet words (Document.ofDevice d) (.hasTruth .hidden false) =
      !d.hidden := by
    change (some d.hidden == some false) = !d.hidden
    cases d.hidden <;> rfl
  rw [Holding.isMet, scope, Device.isListed, hblank]
  cases o.showHidden <;> simp [howner, hshown]

/-- The count of a collection that keeps the records of a store is that of the store. -/
theorem serve_count (words : String → Value → Bool) (user : String) (hholding : holding.Keeps s)
    (hblank : o.searchTerm = none) (order : SortOrder) :
    ∃ n, Holding.serve words (.count (scope user o)) holding = (some (.counted n), holding) ∧
      total? n = some ↑(s.matching user o order).length := by
  have hlength : (holding.filter (Holding.isMet words (scope user o))).length =
      (s.matching user o order).length :=
    Store.length_filter_eq order hholding fun d _ => isMet_ofDevice hblank d
  refine ⟨_, rfl, ?_⟩
  rw [hlength]
  -- Where nothing matches there is no count, which is taken for zero.
  split
  · rename_i hnone
    rw [hnone]
    rfl
  · rw [total?, if_neg (by omega)]

/-- The command of a page finds the documents of what the store lists, in its order. -/
theorem serve_pageCommand (hholding : holding.Keeps s)
    (htimes : ∀ d ∈ s.records, d.IsWhole 1000000) (hblank : o.searchTerm = none)
    {order : SortOrder} (horder : o.order = .ok order) (hlimit : o.limit ≠ 0) :
    Holding.serve words (pageCommand user o order) holding =
      (some (.documents ((window o.offset o.limit (s.matching user o order)).map
        Document.ofDevice)), holding) := by
  obtain ⟨hlimited, hoffset⟩ := ListOptions.bounds_of_order horder
  have hsorted : Holding.inOrder (holding.filter (Holding.isMet words (scope user o)))
      (directions order) = (s.matching user o order).map Document.ofDevice :=
    Store.mergeSort_filter hholding (fun d _ => isMet_ofDevice hblank d)
      (fun a ha b hb => compareDocuments_ofDevice order (htimes a ha) (htimes b hb))
  have hthrough (documents : List Value) : Holding.through documents (some o.offset) o.limit =
      .documents (window o.offset o.limit documents) := by
    simp [Holding.through, window, hlimit, Int.not_lt.mpr hlimited, Int.not_lt.mpr hoffset]
  rw [← window_map, ← hsorted, ← hthrough]
  rfl

/-- What the store lists is read from its documents. -/
theorem devices_window (htimes : ∀ d ∈ s.records, d.IsWhole 1000000) (order : SortOrder) :
    devices ((window o.offset o.limit (s.matching user o order)).map Document.ofDevice) =
      .ok (window o.offset o.limit (s.matching user o order)) := by
  rw [devices, mapM_map_eq_some]
  intro d hd
  exact device?_ofDevice_of_isWhole (htimes d (Store.mem_of_mem_matching (mem_of_mem_window hd)))

/-- Without words to search for, the listing of a collection that keeps the records of a store
is the listing of the store. -/
theorem list_serve (hholding : holding.Keeps s) (htimes : ∀ d ∈ s.records, d.IsWhole 1000000)
    (hblank : o.searchTerm = none) :
    (list user o).run (Holding.serve words) holding = (some (s.list user o), holding) := by
  unfold list Store.list
  cases horder : o.order with
  | error f => rfl
  | ok order =>
    obtain ⟨n, hcount, htotal⟩ := serve_count words user hholding hblank order
    simp only [Dialogue.run, hcount, htotal]
    split
    · rename_i hlimit
      rw [hlimit]
      change (some (Except.ok ([], _)), holding) = (some (Except.ok (window _ _ _, _)), holding)
      rw [window_zero]
    · rename_i hlimit
      simp only [Dialogue.run, serve_pageCommand hholding htimes hblank horder hlimit,
        devices_window htimes order]
      rfl

end Listing

end WaitingRoom.Mongo
