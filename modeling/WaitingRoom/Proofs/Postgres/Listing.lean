import WaitingRoom.Postgres.Archive
import WaitingRoom.Proofs.Json.Attributes
import WaitingRoom.Proofs.Postgres.Table
import WaitingRoom.Proofs.Store.Ranking
import WaitingRoom.Proofs.Text.Ascii

/-!
# Listing a table

The statements of a listing, carried out on a table that keeps the records of a store, count
and select what the store lists. What is selected is read as the records it was laid down
from, as far as columns hold them in full.
-/

namespace WaitingRoom.Postgres

open Time (Instant)

/-! ## Rows are read as they were laid down -/

/-- The list of attributes that a column holds. -/
theorem attributes?_ofDevice (d : Device) :
    (Row.ofDevice d .attributes).nullable? Datum.attributes? =
      some (some (some d.attributeList)) := by
  have hread : Json.decodeText (Json.Value.asOption (Json.Value.asList Attribute.ofJson))
      (Json.Value.list (d.attributeList.map Attribute.toJson)).render =
      .ok (some d.attributeList) := by
    rw [Json.decodeText_render _ (Attribute.isPlain_list _)]
    change (Json.Value.asList Attribute.ofJson _).map some = _
    rw [Attribute.asList_toJson]
    rfl
  change (Datum.attributes? (.json _)).map some = _
  rw [Datum.attributes?, hread]
  rfl

/-- A row is read as the record it was laid down from, with a list of attributes if it had
none, and with the times its microseconds stand for. -/
theorem device?_ofDevice {d : Device} {createdAt updatedAt : Instant}
    (hcreated : Instant.ofMicros? d.createdAt.toMicros = some createdAt)
    (hupdated : Instant.ofMicros? d.updatedAt.toMicros = some updatedAt) :
    (Row.ofDevice d).device? =
      some { d with attributes := some d.attributeList, createdAt, updatedAt } := by
  have htime {t back : Instant} (h : Instant.ofMicros? t.toMicros = some back) :
      (Datum.time t.toMicros).nullable? Datum.time? = some (some back) := by
    change (Instant.ofMicros? t.toMicros).map some = _
    rw [h]
    rfl
  have hcreated : (Row.ofDevice d .createdAt).nullable? Datum.time? = some (some createdAt) :=
    htime hcreated
  have hupdated : (Row.ofDevice d .updatedAt).nullable? Datum.time? = some (some updatedAt) :=
    htime hupdated
  rw [Row.device?, attributes?_ofDevice, hcreated, hupdated]
  rfl

/-! ## Rows compare as records do -/

/-- Rows compare by the column of a key as the records do by the key. -/
theorem compareTo_ofDevice {a b : Device} (key : SortKey) (ha : a.IsWhole 1000)
    (hb : b.IsWhole 1000) :
    (Row.ofDevice a (columnOf key)).weight.compareTo (Row.ofDevice b (columnOf key)).weight =
      Device.compareBy key a b := by
  cases key with
  | localId => exact Weight.compareTo_ofText ..
  | name => exact Weight.compareTo_ofText ..
  | createdAt =>
    exact (Weight.compareTo_ofNumber ..).trans (Instant.compare_toMicros ha.1 hb.1)
  | updatedAt =>
    exact (Weight.compareTo_ofNumber ..).trans (Instant.compare_toMicros ha.2 hb.2)

/-- Rows compare in the directions of an order as the records do in the order. -/
theorem compareRows_ofDevice {a b : Device} (order : SortOrder) (ha : a.IsWhole 1000)
    (hb : b.IsWhole 1000) :
    compareRows (directions order) (Row.ofDevice a) (Row.ofDevice b) =
      Device.compareIn order a b := by
  have hfirst : Direction.compareRows ⟨columnOf order.key, order.descending⟩ (Row.ofDevice a)
      (Row.ofDevice b) = directed order.descending (Device.compareBy order.key a b) :=
    congrArg (directed order.descending) (compareTo_ofDevice order.key ha hb)
  have hlast : Direction.compareRows { column := .localId } (Row.ofDevice a) (Row.ofDevice b) =
      compare a.localId b.localId := compareTo_ofDevice .localId ha hb
  unfold directions
  split
  · rename_i hkey
    rw [Device.compareIn_localId hkey]
    change Ordering.then (Direction.compareRows _ _ _) .eq = _
    rw [hfirst, hkey, Ordering.then_eq, Device.compareBy]
  · rw [Device.compareIn_eq, ← hfirst, ← hlast]
    change Ordering.then _ (Ordering.then _ .eq) = _
    rw [Ordering.then_eq]

/-! ## Conditions are met by the records that are listed -/

/-- What a listing binds, whatever is bound after it. -/
structure Binds (bound : Nat → Datum) (user : String) (o : ListOptions) : Prop where
  owner : bound 1 = .text user
  pattern : ∀ term, o.searchTerm = some term → bound 2 = .text (Pattern.containing term)

theorem binds_count (user : String) (o : ListOptions) : Binds (countQuery user o).bound user o where
  owner := rfl
  pattern term hterm := by
    simp [Query.bound, countQuery, scopeValues, hterm]

theorem binds_page (user : String) (o : ListOptions) (order : SortOrder) :
    Binds (pageQuery user o order).bound user o where
  owner := rfl
  pattern term hterm := by
    simp [Query.bound, pageQuery, scopeValues, hterm]

/-- A text is like the pattern of a term just if it mentions the term. -/
theorem isLike_containing {content term : String} (hcontent : Text.IsAscii content)
    (hterm : Text.IsAscii term) :
    (Datum.text content).isLike (.text (Pattern.containing term)) =
      Text.occursIn (Text.lowerCase term) (Text.lowerCase content) := by
  rw [Text.lowerCase_of_isAscii hcontent, Text.lowerCase_of_isAscii hterm]
  rw [Datum.isLike, Pattern.isLike_containing]

/-- What is searched for in ASCII is in ASCII. -/
theorem isAscii_searchTerm {o : ListOptions} (hsearch : Text.IsAscii o.search) {term : String}
    (hterm : o.searchTerm = some term) : Text.IsAscii term := by
  rw [ListOptions.searchTerm] at hterm
  split at hterm
  · cases hterm
  · cases hterm
    exact hsearch.trim

/-- A row meets the conditions of a listing just if its record is listed. -/
theorem isMet_ofDevice {bound : Nat → Datum} {user : String} {o : ListOptions}
    (hbinds : Binds bound user o) (hsearch : Text.IsAscii o.search) {d : Device}
    (hid : Text.IsAscii d.localId) (hname : Text.IsAscii d.name) :
    (scopeConditions o).all (Condition.isMet bound (Row.ofDevice d)) = d.isListed user o := by
  have howner : Condition.isMet bound (Row.ofDevice d) (.equals .userId 1) = d.isOwnedBy user := by
    rw [Condition.isMet, hbinds.owner]
    change decide (Datum.text d.userId = Datum.text user) = (d.userId == user)
    by_cases h : d.userId = user <;> simp [h]
  have hhidden : (if o.showHidden then [] else [Condition.isFalse .hidden]).all
      (Condition.isMet bound (Row.ofDevice d)) = (o.showHidden || !d.hidden) := by
    have hfalse : Condition.isMet bound (Row.ofDevice d) (.isFalse .hidden) = !d.hidden := by
      change decide (Datum.truth d.hidden = Datum.truth false) = !d.hidden
      cases d.hidden <;> rfl
    cases o.showHidden
    · simp [hfalse]
    · rfl
  have hfound : (if o.searchTerm.isSome then [Condition.anyLike [.localId, .name] 2] else []).all
      (Condition.isMet bound (Row.ofDevice d)) =
        (o.searchTerm.all fun term => d.mentions (Text.lowerCase term)) := by
    cases hterm : o.searchTerm with
    | none => rfl
    | some term =>
      have hascii := isAscii_searchTerm hsearch hterm
      have hlocal : (Row.ofDevice d .localId).isLike (bound 2) =
          Text.occursIn (Text.lowerCase term) (Text.lowerCase d.localId) := by
        rw [hbinds.pattern term hterm]
        exact isLike_containing hid hascii
      have hnamed : (Row.ofDevice d .name).isLike (bound 2) =
          Text.occursIn (Text.lowerCase term) (Text.lowerCase d.name) := by
        rw [hbinds.pattern term hterm]
        exact isLike_containing hname hascii
      simp [Condition.isMet, hlocal, hnamed, Device.mentions]
  rw [scopeConditions, List.all_append, List.all_append, hhidden, hfound, Device.isListed]
  simp only [List.all_cons, List.all_nil, Bool.and_true, howner]
  cases o.searchTerm <;> rfl

/-! ## The statements of a listing -/

theorem isBound_countQuery (user : String) (o : ListOptions) :
    (countQuery user o).isBound = true := by
  unfold countQuery Query.isBound scopeConditions scopeValues
  cases o.showHidden <;> cases o.searchTerm <;> rfl

theorem isBound_pageQuery (user : String) (o : ListOptions) (order : SortOrder) :
    (pageQuery user o order).isBound = true := by
  unfold pageQuery Query.isBound scopeConditions scopeValues
  cases o.showHidden <;> cases o.searchTerm <;> rfl

/-- The window of a page is the one asked for. -/
theorem through_pageQuery (rows : List Row) (user : String) {o : ListOptions} (order : SortOrder)
    (hlimit : 0 ≤ o.limit) (hoffset : 0 ≤ o.offset) :
    Table.through rows (pageQuery user o order).bound
      (some ⟨(scopeValues user o).length + 1, (scopeValues user o).length + 2⟩) =
      .rows (window o.offset o.limit rows) := by
  have hbound : (pageQuery user o order).bound ((scopeValues user o).length + 1) =
        .integer o.limit ∧
      (pageQuery user o order).bound ((scopeValues user o).length + 2) = .integer o.offset := by
    unfold pageQuery Query.bound scopeValues
    cases o.searchTerm <;> exact ⟨rfl, rfl⟩
  rw [Table.through, hbound.1, hbound.2, window, if_neg (Int.not_lt.mpr hoffset),
    if_neg (Int.not_lt.mpr hlimit)]
  simp [Int.not_lt.mpr hoffset, Int.not_lt.mpr hlimit]

/-- A record that a table keeps in full: it has a list of attributes, both times are whole
microseconds, and what is searched in is in ASCII. -/
structure Kept (d : Device) : Prop where
  localId : Text.IsAscii d.localId
  name : Text.IsAscii d.name
  attributes : d.attributes.isSome
  times : d.IsWhole 1000

theorem Kept.device?_ofDevice {d : Device} (h : Kept d) : (Row.ofDevice d).device? = some d := by
  rw [Postgres.device?_ofDevice (Instant.ofMicros?_toMicros h.times.1)
    (Instant.ofMicros?_toMicros h.times.2), Device.attributeList]
  obtain ⟨attributes, hsome⟩ := Option.isSome_iff_exists.mp h.attributes
  cases d
  simp_all

section Listing

variable {table : Table} {s : Store} {user : String} {o : ListOptions}

/-- The statement of a count counts what the store lists. -/
theorem serve_countQuery (htable : table.Keeps s) (hkept : ∀ d ∈ s.records, Kept d)
    (hsearch : Text.IsAscii o.search) (order : SortOrder) :
    Table.serve (countQuery user o) table =
      (some (.counted (some (s.matching user o order).length)), table) := by
  have hlength : (table.meeting (countQuery user o).bound (scopeConditions o)).length =
      (s.matching user o order).length :=
    Store.length_filter_eq order htable fun d hd =>
      isMet_ofDevice (binds_count user o) hsearch (hkept d hd).localId (hkept d hd).name
  rw [Table.serve_count (isBound_countQuery user o) rfl, hlength]

/-- The statement of a page selects the rows of what the store lists, in its order. -/
theorem serve_pageQuery (htable : table.Keeps s) (hkept : ∀ d ∈ s.records, Kept d)
    (hsearch : Text.IsAscii o.search) {order : SortOrder} (horder : o.order = .ok order) :
    Table.serve (pageQuery user o order) table =
      (some (.rows ((window o.offset o.limit (s.matching user o order)).map Row.ofDevice)),
        table) := by
  obtain ⟨hlimit, hoffset⟩ := ListOptions.bounds_of_order horder
  have hsorted : Table.inOrder (table.meeting (pageQuery user o order).bound (scopeConditions o))
      (directions order) = (s.matching user o order).map Row.ofDevice :=
    Store.mergeSort_filter htable
      (fun d hd =>
        isMet_ofDevice (binds_page user o order) hsearch (hkept d hd).localId (hkept d hd).name)
      (fun a ha b hb => compareRows_ofDevice order (hkept a ha).times (hkept b hb).times)
  rw [Table.serve_select (isBound_pageQuery user o order) rfl, hsorted,
    through_pageQuery _ user order hlimit hoffset, window_map]

/-- What the store lists is read from its rows. -/
theorem devices_window (hkept : ∀ d ∈ s.records, Kept d) (order : SortOrder) :
    devices ((window o.offset o.limit (s.matching user o order)).map Row.ofDevice) =
      .ok (window o.offset o.limit (s.matching user o order)) := by
  rw [devices, mapM_map_eq_some]
  intro d hd
  exact (hkept d (Store.mem_of_mem_matching (mem_of_mem_window hd))).device?_ofDevice

/-- The listing of a table that keeps the records of a store is the listing of the store. -/
theorem list_serve (htable : table.Keeps s) (hkept : ∀ d ∈ s.records, Kept d)
    (hsearch : Text.IsAscii o.search) :
    (list user o).run Table.serve table = (some (s.list user o), table) := by
  unfold list Store.list
  cases horder : o.order with
  | error f => rfl
  | ok order =>
    simp only [Dialogue.run, serve_countQuery htable hkept hsearch order,
      serve_pageQuery htable hkept hsearch horder, devices_window hkept order]
    rfl

end Listing

end WaitingRoom.Postgres
