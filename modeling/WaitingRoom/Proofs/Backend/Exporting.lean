import WaitingRoom.Proofs.Backend.Agreement
import WaitingRoom.Proofs.Backend.Passing

/-!
# Backends export alike

A page of all records is the same whether it is cut from the records themselves, from the rows of
a table or from the documents of a collection, as long as its bounds are not negative. Databases
take a negative bound for zero. In memory a negative offset is beyond the end and a negative limit
is none, so a page with a negative bound is another one there, unless there is nothing by which
the two can be told apart.
-/

namespace WaitingRoom

open Time (Instant)

/-! ## Pages in the order of local ids -/

namespace Store

/-- The records of a store are in the order of their local ids. -/
theorem mergeSort_records (s : Store) :
    (s.records.mergeSort fun a b => (Device.compareIn ⟨.localId, false⟩ a b).isLE) =
      s.records := by
  apply List.mergeSort_of_pairwise
  refine s.sorted.imp fun {a b} hab => ?_
  have hlt : compare a.localId b.localId = .lt := if_pos hab
  rw [Device.compareIn_localId rfl, directed, hlt]
  rfl

/-- Whatever stands for the records of a store stands for them in this order once it is sorted
by local id. -/
theorem mergeSort_perm {β : Type} {f : Device → β} {s : Store} {rows : List β}
    (hrows : rows.Perm (s.records.map f)) {cmp : β → β → Ordering} [Std.TransCmp cmp]
    (hcmp : ∀ a b, cmp (f a) (f b) = compare a.localId b.localId) :
    ((rows.filter fun _ => true).mergeSort fun a b => (cmp a b).isLE) = s.records.map f := by
  have hlocal (a b : Device) : cmp (f a) (f b) = Device.compareIn ⟨.localId, false⟩ a b := by
    rw [Device.compareIn_localId rfl]
    exact hcmp a b
  have hall : s.records.filter (fun _ => true) = s.records := List.filter_true _
  rw [← s.mergeSort_records, ← hall]
  exact Store.mergeSort_filter hrows (fun _ _ => rfl) fun a _ b _ => hlocal a b

/-- The records from `offset` on, `limit` of them. What is negative counts as zero. -/
def page (s : Store) (offset limit : Int) : List Device :=
  (s.records.drop offset.toNat).take limit.toNat

/-- A page of the store is that page just if its bounds are not negative, or both are empty all
the same. -/
theorem exportPage_eq_page_iff (s : Store) (offset limit : Int) :
    s.exportPage offset limit = s.page offset limit ↔
      0 ≤ offset ∧ 0 ≤ limit ∨ offset < 0 ∧ limit ≤ 0 ∨ limit < 0 ∧ (s.size : Int) ≤ offset ∨
        s.records = [] := by
  unfold exportPage page window size
  by_cases hempty : s.records = []
  · simp [hempty]
  · have hsize : 0 < s.records.length := List.length_pos_iff.mpr hempty
    simp only [hempty, or_false]
    by_cases hoffset : offset < 0
    · have hzero : offset.toNat = 0 := Int.toNat_of_nonpos (Int.le_of_lt hoffset)
      rw [if_pos hoffset, hzero, List.drop_zero, eq_comm, List.take_eq_nil_iff]
      simp only [hempty, or_false]
      omega
    · rw [if_neg hoffset]
      by_cases hlimit : limit < 0
      · have hzero : limit.toNat = 0 := Int.toNat_of_nonpos (Int.le_of_lt hlimit)
        rw [if_pos hlimit, hzero, List.take_zero, List.drop_eq_nil_iff]
        omega
      · rw [if_neg hlimit]
        simp only [true_iff]
        omega

end Store

/-! ## Rows -/

namespace Postgres

variable {table : Table} {s : Store}

/-- Rows compare by local id as their records do. -/
theorem compareRows_localId (a b : Device) :
    compareRows [{ column := .localId }] (Row.ofDevice a) (Row.ofDevice b) =
      compare a.localId b.localId := by
  have hfirst : Direction.compareRows { column := .localId } (Row.ofDevice a) (Row.ofDevice b) =
      compare a.localId b.localId := Weight.compareTo_ofText 0 a.localId b.localId
  change Ordering.then (Direction.compareRows _ _ _) .eq = _
  rw [Ordering.then_eq, hfirst]

/-- The statement of a page selects the rows of its records, in order. -/
theorem serve_fetchQuery (htable : table.Keeps s) (offset limit : Int) :
    Table.serve (fetchQuery offset limit) table =
      (some (.rows ((s.page offset limit).map Row.ofDevice)), table) := by
  have hsorted : Table.inOrder (table.meeting (fetchQuery offset limit).bound [])
      [{ column := .localId }] = s.records.map Row.ofDevice :=
    Store.mergeSort_perm htable compareRows_localId
  have hthrough (rows : List Row) : Table.through rows (fetchQuery offset limit).bound
      (some ⟨1, 2⟩) = .rows ((rows.drop offset.toNat).take limit.toNat) := by
    have hlimit : (fetchQuery offset limit).bound 1 = .integer (max limit 0) := rfl
    have hoffset : (fetchQuery offset limit).bound 2 = .integer (max offset 0) := rfl
    have hbounds : ¬(max limit 0 < 0 ∨ max offset 0 < 0) := by omega
    have htoNat (n : Int) : (max n 0).toNat = n.toNat := by omega
    simp only [Table.through, hlimit, hoffset, Bool.or_eq_true, decide_eq_true_eq, if_neg hbounds,
      htoNat]
  rw [Table.serve_select rfl rfl, hsorted, hthrough, Store.page, List.map_take, List.map_drop]

/-- The records of a page are read from their rows, if their times can be counted. -/
theorem fetch_serve (htable : table.Keeps s) {offset limit : Int}
    (htimely : ∀ d ∈ s.page offset limit, d.IsTimely) :
    (fetch offset limit).run Table.serve table =
      (some (.ok ((s.page offset limit).map Device.inMicros)), table) := by
  have hread : devices ((s.page offset limit).map Row.ofDevice) =
      .ok ((s.page offset limit).map Device.inMicros) := by
    rw [devices, mapM_map_eq_some_map fun d hd =>
      device?_ofDevice (Instant.isWhole_inMicros (htimely d hd).1).1
        (Instant.isWhole_inMicros (htimely d hd).2).1]
    rfl
  simp only [fetch, Dialogue.run, serve_fetchQuery htable, hread]

end Postgres

/-! ## Documents -/

namespace Mongo

variable {words : String → Value → Bool} {holding : Holding} {s : Store}

/-- Documents compare by local id as their records do. -/
theorem compareDocuments_localId (a b : Device) :
    compareDocuments [{ path := .localId }] (Document.ofDevice a) (Document.ofDevice b) =
      compare a.localId b.localId := by
  have hfirst : Direction.compareDocuments { path := .localId } (Document.ofDevice a)
      (Document.ofDevice b) = compare a.localId b.localId :=
    Weight.compareTo_ofText 2 a.localId b.localId
  change Ordering.then (Direction.compareDocuments _ _ _) .eq = _
  rw [Ordering.then_eq, hfirst]

/-- The command of a page finds the documents of its records, in order. -/
theorem serve_fetchCommand (hholding : holding.Keeps s) (offset : Int) {limit : Int}
    (hlimit : 0 < limit) :
    Holding.serve words (fetchCommand offset limit) holding =
      (some (.documents ((s.page offset limit).map Document.ofDevice)), holding) := by
  have hsorted : Holding.inOrder (holding.filter (Holding.isMet words []))
      [{ path := .localId }] = s.records.map Document.ofDevice :=
    Store.mergeSort_perm hholding compareDocuments_localId
  have hthrough (documents : List Value) :
      Holding.through documents (some (max offset 0)) limit =
        .documents ((documents.drop offset.toNat).take limit.toNat) := by
    have hbounds : ¬(max offset 0 < 0 ∨ limit < 0) := by omega
    have htoNat : (max offset 0).toNat = offset.toNat := by omega
    simp only [Holding.through, Option.getD_some, Bool.or_eq_true, decide_eq_true_eq,
      if_neg hbounds, if_neg (Int.ne_of_gt hlimit), htoNat]
  rw [Store.page, List.map_take, List.map_drop, ← hthrough, ← hsorted]
  rfl

/-- The records of a page are read from their documents. -/
theorem fetch_serve (hholding : holding.Keeps s) (offset limit : Int) :
    (fetch offset limit).run (Holding.serve words) holding =
      (some (.ok ((s.page offset limit).map Device.inMillis)), holding) := by
  have hread : devices ((s.page offset limit).map Document.ofDevice) =
      .ok ((s.page offset limit).map Device.inMillis) := by
    rw [devices, mapM_map_eq_some_map fun d _ => device?_ofDevice d]
    rfl
  by_cases hlimit : limit ≤ 0
  · have hempty : s.page offset limit = [] := by
      rw [Store.page, Int.toNat_of_nonpos hlimit, List.take_zero]
    simp only [fetch, if_pos hlimit, Dialogue.run, hempty, List.map_nil]
  · have hlimit' : 0 < limit := Int.not_le.mp hlimit
    simp only [fetch, if_neg hlimit, Dialogue.run, serve_fetchCommand hholding offset hlimit',
      hread]

end Mongo

/-! ## Pages of all backends -/

/-- A page of all records is cut alike from whatever stands for them. A table that keeps the
records of a store selects the rows of the page, in order, and they are read as its records in
whole microseconds; from a collection they are read in whole milliseconds. So records that both
keep in full come as they are. The store itself gives the same page just if neither bound is
negative, or there is nothing by which the two can be told apart. -/
theorem exports_agree (s : Store) (offset limit : Int) :
    (∀ table : Postgres.Table, table.Keeps s →
      Postgres.Table.serve (Postgres.fetchQuery offset limit) table =
        (some (.rows ((s.page offset limit).map Postgres.Row.ofDevice)), table) ∧
      ((∀ d ∈ s.page offset limit, d.IsTimely) →
        (Postgres.fetch offset limit).run Postgres.Table.serve table =
          (some (.ok ((s.page offset limit).map Device.inMicros)), table))) ∧
    (∀ words (holding : Mongo.Holding), holding.Keeps s →
      (Mongo.fetch offset limit).run (Mongo.Holding.serve words) holding =
        (some (.ok ((s.page offset limit).map Device.inMillis)), holding)) ∧
    (∀ d ∈ s.page offset limit, d.attributes.isSome → d.IsWhole 1000000 →
      d.IsTimely ∧ d.inMicros = d ∧ d.inMillis = d) ∧
    (s.exportPage offset limit = s.page offset limit ↔
      0 ≤ offset ∧ 0 ≤ limit ∨ offset < 0 ∧ limit ≤ 0 ∨ limit < 0 ∧ (s.size : Int) ≤ offset ∨
        s.records = []) := by
  refine ⟨fun table htable => ⟨?_, ?_⟩, ?_, fun d _ hattributes hwhole => ⟨?_, ?_, ?_⟩, ?_⟩
  · exact Postgres.serve_fetchQuery htable offset limit
  · exact Postgres.fetch_serve htable
  · exact fun words holding hholding => Mongo.fetch_serve hholding offset limit
  · exact hwhole.isTimely
  · exact Device.inMicros_of_isWhole ⟨hwhole.1.micros, hwhole.2.micros⟩ hattributes
  · exact Device.inMillis_of_isWhole hwhole
  · exact s.exportPage_eq_page_iff offset limit

/-- The first of two lamps, which are kept in some other order, is exported alike by all. -/
theorem first_lamp_is_exported :
    let table : Postgres.Table := [olderLamp, newerLamp].map Postgres.Row.ofDevice
    let holding : Mongo.Holding := [olderLamp, newerLamp].map Mongo.Document.ofDevice
    (Postgres.fetch 0 1).run Postgres.Table.serve table = (some (.ok [newerLamp]), table) ∧
    (Mongo.fetch 0 1).run (Mongo.Holding.serve fun _ _ => false) holding =
      (some (.ok [newerLamp]), holding) ∧
    lamps.exportPage 0 1 = [newerLamp] := by
  intro table holding
  obtain ⟨hrows, hdocuments, hkept, hpage⟩ := exports_agree lamps 0 1
  have hfirst : lamps.page 0 1 = [newerLamp] := rfl
  have hwhole : newerLamp.IsWhole 1000000 := ⟨⟨by decide, by decide⟩, ⟨by decide, by decide⟩⟩
  obtain ⟨htimely, hmicros, hmillis⟩ :=
    hkept newerLamp (hfirst ▸ List.mem_singleton_self _) rfl hwhole
  have hfetched := (hrows table (.swap ..)).2
  have hfound := hdocuments (fun _ _ => false) holding (.swap ..)
  rw [hfirst] at hfetched hfound hpage
  rw [List.map_singleton, hmicros] at hfetched
  rw [List.map_singleton, hmillis] at hfound
  exact ⟨hfetched (List.forall_mem_singleton.mpr htimely), hfound, hpage.mpr (.inl (by decide))⟩

/-- From an offset below zero databases export the lamps from the first on and the store none;
with a limit below zero they export none and the store all. -/
theorem negative_bounds_tell_backends_apart :
    let s := Store.empty.insert newerLamp
    let table : Postgres.Table := [Postgres.Row.ofDevice newerLamp]
    let holding : Mongo.Holding := [Mongo.Document.ofDevice newerLamp]
    table.Keeps s ∧ holding.Keeps s ∧
    ((Postgres.fetch (-1) 10).run Postgres.Table.serve table = (some (.ok [newerLamp]), table) ∧
      (Mongo.fetch (-1) 10).run (Mongo.Holding.serve fun _ _ => false) holding =
        (some (.ok [newerLamp]), holding) ∧
      s.exportPage (-1) 10 = []) ∧
    (Postgres.fetch 0 (-1)).run Postgres.Table.serve table = (some (.ok []), table) ∧
    (Mongo.fetch 0 (-1)).run (Mongo.Holding.serve fun _ _ => false) holding =
      (some (.ok []), holding) ∧
    s.exportPage 0 (-1) = [newerLamp] := by
  intro s table holding
  have htable : table.Keeps s := .refl _
  have hholding : holding.Keeps s := .refl _
  have htimely : ∀ d ∈ s.page (-1) 10, d.IsTimely := by decide
  have hmicros : (s.page (-1) 10).map Device.inMicros = [newerLamp] := by decide
  have hmillis : (s.page (-1) 10).map Device.inMillis = [newerLamp] := by decide
  refine ⟨htable, hholding, ⟨?_, ?_, rfl⟩, ?_, ?_, rfl⟩
  · rw [Postgres.fetch_serve htable htimely, hmicros]
  · rw [Mongo.fetch_serve hholding, hmillis]
  · exact Postgres.fetch_serve htable (by decide)
  · exact Mongo.fetch_serve hholding 0 (-1)

end WaitingRoom
