import WaitingRoom.Proofs.Mongo.Listing
import WaitingRoom.Proofs.Postgres.Listing

/-!
# Backends list alike

A listing is the same whether it is asked of the records themselves, of the rows of a table or
of the documents of a collection. The records have to be such that each database keeps them in
full: a relational one has no empty place for a missing list of attributes and tells letters
apart in ASCII only, and both count time in fractions of seconds none of which is a leap second.
-/

namespace WaitingRoom

open Time (Instant)

/-- A record that every database keeps in full. -/
structure Device.Plain (d : Device) : Prop where
  localId : Text.IsAscii d.localId
  name : Text.IsAscii d.name
  attributes : d.attributes.isSome
  times : d.IsWhole 1000000

theorem Device.Plain.kept {d : Device} (h : d.Plain) : Postgres.Kept d where
  localId := h.localId
  name := h.name
  attributes := h.attributes
  times := ⟨h.times.1.micros, h.times.2.micros⟩

theorem SortKey.invalid_of_parse {s : String} {f : Failure} (h : SortKey.parse s = .error f) :
    ∃ text, f = .invalidArgument text := by
  unfold SortKey.parse at h
  split at h
  · cases h
  · exact ⟨_, (Except.error.inj h).symm⟩

theorem SortOrder.invalid_of_parse {s : String} {f : Failure}
    (h : SortOrder.parse s = .error f) : ∃ text, f = .invalidArgument text := by
  have hkey {key : String} {descending : Bool}
      (h : (SortKey.parse key).map (fun k => SortOrder.mk k descending) = .error f) :
      ∃ text, f = .invalidArgument text := by
    cases hparse : SortKey.parse key with
    | ok k =>
      rw [hparse] at h
      cases h
    | error g =>
      rw [hparse] at h
      exact Except.error.inj h ▸ SortKey.invalid_of_parse hparse
  unfold SortOrder.parse at h
  split at h
  · exact hkey h
  · exact hkey h
  · exact hkey h
  · exact ⟨_, (Except.error.inj h).symm⟩

/-- What is wrong with list options is wrong with an argument. -/
theorem ListOptions.invalid_of_order {o : ListOptions} {f : Failure} (h : o.order = .error f) :
    ∃ text, f = .invalidArgument text := by
  unfold ListOptions.order at h
  split at h
  · exact ⟨_, (Except.error.inj h).symm⟩
  · split at h
    · exact ⟨_, (Except.error.inj h).symm⟩
    · exact SortOrder.invalid_of_parse h

/-- Options that make sense are answered with the page and total of the store by every backend
that keeps its records: by a table, and, without words to search for, by a collection. Options
that make no sense are refused in the same way by all of them, before anything is asked. -/
theorem listings_agree {s : Store} {o : ListOptions} (user : String)
    (hplain : ∀ d ∈ s.records, d.Plain) (hsearch : Text.IsAscii o.search) :
    (∀ order, o.order = .ok order → ∃ page total, s.list user o = .ok (page, total) ∧
      (∀ table : Postgres.Table, table.Keeps s →
        (Postgres.list user o).run Postgres.Table.serve table =
          (some (.ok (page, total)), table)) ∧
      (o.searchTerm = none → ∀ words (holding : Mongo.Holding), holding.Keeps s →
        (Mongo.list user o).run (Mongo.Holding.serve words) holding =
          (some (.ok (page, total)), holding))) ∧
    ∀ f, o.order = .error f → (∃ text, f = .invalidArgument text) ∧
      s.list user o = .error f ∧
      Postgres.list user o = .done (.error f) ∧
      Mongo.list user o = .done (.error f) := by
  refine ⟨fun order horder => ?_, fun f hf => ?_⟩
  · have hlist : s.list user o = .ok (window o.offset o.limit (s.matching user o order),
        ↑(s.matching user o order).length) := by
      rw [Store.list, horder]
      rfl
    refine ⟨_, _, hlist, fun table htable => ?_, fun hblank words holding hholding => ?_⟩
    · rw [← hlist]
      exact Postgres.list_serve htable (fun d hd => (hplain d hd).kept) hsearch
    · rw [← hlist]
      exact Mongo.list_serve hholding (fun d hd => (hplain d hd).times) hblank
  · refine ⟨ListOptions.invalid_of_order hf, ?_, ?_, ?_⟩
    · rw [Store.list, hf]
      rfl
    · rw [Postgres.list, hf]
    · rw [Mongo.list, hf]

/-- Two lamps of one owner; the newer one comes first by local id. -/
def newerLamp : Device :=
  { localId := "lamp-1", name := "Hall", attributes := some [], userId := "alice"
    createdAt := ⟨1700000000, 5000000, by decide, by decide, by decide⟩ }

def olderLamp : Device :=
  { localId := "lamp-2", name := "Desk", attributes := some [], userId := "alice" }

def lamps : Store := (Store.empty.insert olderLamp).insert newerLamp

theorem plain_of_mem_lamps {d : Device} (hd : d ∈ lamps.records) : d.Plain := by
  have hlamp : d ∈ [newerLamp, olderLamp] := hd
  obtain rfl | rfl : d = newerLamp ∨ d = olderLamp := by simpa using hlamp
  · exact ⟨by decide, by decide, rfl, ⟨by decide, by decide⟩, ⟨by decide, by decide⟩⟩
  · exact ⟨by decide, by decide, rfl, ⟨by decide, by decide⟩, ⟨by decide, by decide⟩⟩

/-- The lamps, ordered from the newest on. -/
def newestFirst : ListOptions := { limit := 1, sort := "created_at.desc" }

/-- What mentions the desk. -/
def aboutDesk : ListOptions := { search := " DESK " }

theorem list_newestFirst : lamps.list "alice" newestFirst = .ok ([newerLamp], 2) := by
  have hmatching : lamps.matching "alice" newestFirst ⟨.createdAt, true⟩ =
      [newerLamp, olderLamp] := List.mergeSort_of_pairwise (by decide)
  change Except.ok (window _ _ (lamps.matching "alice" newestFirst ⟨.createdAt, true⟩), _) = _
  rw [hmatching]
  rfl

theorem list_aboutDesk : lamps.list "alice" aboutDesk = .ok ([olderLamp], 1) := by
  have hfiltered : (lamps.records.filter fun d => d.isListed "alice" aboutDesk) = [olderLamp] := by
    decide
  have hmatching : lamps.matching "alice" aboutDesk ⟨.localId, false⟩ = [olderLamp] := by
    rw [Store.matching, hfiltered, List.mergeSort_singleton]
  change Except.ok (window _ _ (lamps.matching "alice" aboutDesk ⟨.localId, false⟩), _) = _
  rw [hmatching]
  rfl

/-- The newest lamp is found by every backend, in whatever order the lamps are kept; a lamp that
is searched for is found in a table; and a negative offset is refused before anything is
asked. -/
theorem newest_lamp_is_listed :
    let table : Postgres.Table := [olderLamp, newerLamp].map Postgres.Row.ofDevice
    let holding : Mongo.Holding := [olderLamp, newerLamp].map Mongo.Document.ofDevice
    (Postgres.list "alice" newestFirst).run Postgres.Table.serve table =
      (some (.ok ([newerLamp], 2)), table) ∧
    (Mongo.list "alice" newestFirst).run (Mongo.Holding.serve fun _ _ => false) holding =
      (some (.ok ([newerLamp], 2)), holding) ∧
    (Postgres.list "alice" aboutDesk).run Postgres.Table.serve table =
      (some (.ok ([olderLamp], 1)), table) ∧
    Mongo.list "alice" { offset := -1 } =
      .done (.error (.invalidArgument "offset must not be negative")) := by
  intro table holding
  have hplain : ∀ d ∈ lamps.records, d.Plain := fun _ => plain_of_mem_lamps
  have htable : table.Keeps lamps := .swap ..
  have hholding : holding.Keeps lamps := .swap ..
  obtain ⟨page, total, hpage, hrows, hdocuments⟩ :=
    (listings_agree (o := newestFirst) "alice" hplain (by decide)).1 ⟨.createdAt, true⟩ rfl
  obtain ⟨found, count, hfound, hmatches, -⟩ :=
    (listings_agree (o := aboutDesk) "alice" hplain (by decide)).1 ⟨.localId, false⟩ rfl
  obtain ⟨-, -, -, hrefused⟩ :=
    (listings_agree (o := { offset := -1 }) "alice" hplain (by decide)).2 _ rfl
  cases hpage.symm.trans list_newestFirst
  cases hfound.symm.trans list_aboutDesk
  exact ⟨hrows table htable, hdocuments rfl _ holding hholding, hmatches table htable, hrefused⟩

/-- The leap second at the end of the year 2016, and the second that follows it. -/
def leapSecond : Instant := ⟨1483228799, 1000000000, by decide, by decide, by decide⟩

def newYear : Instant := ⟨1483228800, 0, by decide, by decide, by decide⟩

/-- A lamp that was set up at the given instant. -/
def lampSetUpAt (t : Instant) : Device :=
  { localId := "lamp", name := "Desk", attributes := some [], userId := "alice"
    createdAt := t, updatedAt := t }

def leapLamp : Device := lampSetUpAt leapSecond

/-- A lamp that was set up in the leap second is read as one set up in the new year. -/
theorem device?_leapLamp :
    (Postgres.Row.ofDevice leapLamp).device? = some (lampSetUpAt newYear) :=
  Postgres.device?_ofDevice (by decide) (by decide)

/-- A whole number of milliseconds that lies within a leap second is listed as another instant by
a table than by the store. -/
theorem leap_second_is_moved :
    let s := Store.empty.insert leapLamp
    let table : Postgres.Table := [Postgres.Row.ofDevice leapLamp]
    (∀ d ∈ s.records, Text.IsAscii d.localId ∧ Text.IsAscii d.name ∧ d.attributes.isSome ∧
      d.createdAt.nano % 1000000 = 0 ∧ d.updatedAt.nano % 1000000 = 0) ∧
    table.Keeps s ∧
    s.list "alice" {} = .ok ([leapLamp], 1) ∧
    (Postgres.list "alice" {}).run Postgres.Table.serve table =
      (some (.ok ([lampSetUpAt newYear], 1)), table) ∧
    lampSetUpAt newYear ≠ leapLamp := by
  intro s table
  refine ⟨by decide, .refl _, ?_, ?_, by decide⟩
  · have hmatching : s.matching "alice" {} ⟨.localId, false⟩ = [leapLamp] :=
      List.mergeSort_singleton ..
    change Except.ok (window _ _ (s.matching "alice" {} ⟨.localId, false⟩), _) = _
    rw [hmatching]
    rfl
  · have hsorted (order : List Postgres.Direction) : Postgres.Table.inOrder table order = table :=
      List.mergeSort_singleton ..
    have hcount : Postgres.Table.serve (Postgres.countQuery "alice" {}) table =
        (some (.counted (some 1)), table) := rfl
    have hpage : Postgres.Table.serve (Postgres.pageQuery "alice" {} ⟨.localId, false⟩) table =
        (some (.rows table), table) := by
      change (some (Postgres.Table.through (Postgres.Table.inOrder table _) _ _), table) = _
      rw [hsorted]
      rfl
    have hread : Postgres.devices table = .ok [lampSetUpAt newYear] := by
      rw [Postgres.devices, List.mapM_cons, device?_leapLamp]
      rfl
    have horder : ({} : ListOptions).order = .ok ⟨.localId, false⟩ := rfl
    simp only [Postgres.list, horder, Dialogue.run, hcount, hpage, hread]
    rfl

end WaitingRoom
