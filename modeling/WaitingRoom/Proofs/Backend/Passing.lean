import WaitingRoom.Backend
import WaitingRoom.Proofs.Mongo.Listing
import WaitingRoom.Proofs.Postgres.Listing
import WaitingRoom.Proofs.Time.Precision

/-!
# What a database makes of a record

A record that is written to a database and read again comes back as it was, but for what the
database's types cannot hold: the part of its times below a whole unit, and, in a row, the
difference between no list of attributes and the empty one. What a record has lost once it
does not lose again.
-/

namespace WaitingRoom

open Time (Instant)

namespace Device

/-- Both times can be counted in the units of a database. -/
def IsTimely (d : Device) : Prop := d.createdAt.IsTimely ∧ d.updatedAt.IsTimely

instance (d : Device) : Decidable d.IsTimely :=
  inferInstanceAs (Decidable (d.createdAt.IsTimely ∧ d.updatedAt.IsTimely))

/-- The record with its times in whole milliseconds. -/
def inMillis (d : Device) : Device :=
  { d with createdAt := d.createdAt.inMillis, updatedAt := d.updatedAt.inMillis }

/-- The record with its times in whole microseconds, and with a list of attributes. -/
def inMicros (d : Device) : Device :=
  { d with
    attributes := some d.attributeList
    createdAt := d.createdAt.inMicros
    updatedAt := d.updatedAt.inMicros }

/-- The record with its default in the field of each of some columns. -/
def without (columns : List Postgres.Column) (d : Device) : Device where
  id := if .id ∈ columns then ({} : Device).id else d.id
  localId := d.localId
  name := if .name ∈ columns then ({} : Device).name else d.name
  deviceTypeId := if .deviceTypeId ∈ columns then ({} : Device).deviceTypeId else d.deviceTypeId
  attributes := if .attributes ∈ columns then ({} : Device).attributes else d.attributes
  userId := if .userId ∈ columns then ({} : Device).userId else d.userId
  hidden := if .hidden ∈ columns then ({} : Device).hidden else d.hidden
  createdAt := if .createdAt ∈ columns then ({} : Device).createdAt else d.createdAt
  updatedAt := if .updatedAt ∈ columns then ({} : Device).updatedAt else d.updatedAt

variable {d : Device}

theorem isWhole_inMillis (h : d.IsTimely) : d.inMillis.IsWhole 1000000 :=
  ⟨Instant.isWhole_inMillis h.1, Instant.isWhole_inMillis h.2⟩

theorem isWhole_inMicros (h : d.IsTimely) : d.inMicros.IsWhole 1000 :=
  ⟨(Instant.isWhole_inMicros h.1).2, (Instant.isWhole_inMicros h.2).2⟩

theorem IsWhole.isTimely {unit : Nat} (h : d.IsWhole unit) : d.IsTimely :=
  ⟨h.1.isTimely, h.2.isTimely⟩

theorem inMillis_of_isWhole (h : d.IsWhole 1000000) : d.inMillis = d := by
  rw [inMillis, Instant.inMillis_of_isWhole h.1, Instant.inMillis_of_isWhole h.2]

/-- Whole milliseconds stay whole when they are counted in microseconds. -/
theorem IsWhole.inMicros (h : d.IsWhole 1000000) : d.inMicros.IsWhole 1000000 := by
  have hcreated := Instant.inMicros_of_isWhole h.1.micros
  have hupdated := Instant.inMicros_of_isWhole h.2.micros
  rw [IsWhole, Device.inMicros, hcreated, hupdated]
  exact h

theorem inMicros_of_isWhole (h : d.IsWhole 1000) (hattributes : d.attributes.isSome) :
    d.inMicros = d := by
  obtain ⟨attributes, hsome⟩ := Option.isSome_iff_exists.mp hattributes
  rw [inMicros, attributeList, Instant.inMicros_of_isWhole h.1, Instant.inMicros_of_isWhole h.2]
  cases d
  simp_all

/-- A record is kept in whole milliseconds just if its times are some. -/
theorem inMillis_eq_self_iff : d.inMillis = d ↔ d.IsWhole 1000000 :=
  ⟨fun h => ⟨Instant.inMillis_eq_self_iff.mp (congrArg createdAt h),
    Instant.inMillis_eq_self_iff.mp (congrArg updatedAt h)⟩, inMillis_of_isWhole⟩

/-- A record is kept in whole microseconds and with a list of attributes just if its times are
some and it has such a list. -/
theorem inMicros_eq_self_iff : d.inMicros = d ↔ d.attributes.isSome ∧ d.IsWhole 1000 :=
  ⟨fun h => ⟨congrArg attributes h ▸ rfl, Instant.inMicros_eq_self_iff.mp (congrArg createdAt h),
    Instant.inMicros_eq_self_iff.mp (congrArg updatedAt h)⟩,
    fun ⟨hattributes, hwhole⟩ => inMicros_of_isWhole hwhole hattributes⟩

end Device

namespace Postgres

/-- The row with some of its columns left without content. -/
def Row.without (columns : List Column) (row : Row) : Row := fun column =>
  if column ∈ columns then .null else row column

/-- A column is read as it is, or as nothing if it was left without content. -/
theorem Row.nullable?_without {α : Type} {read : Datum → Option α} {row : Row} {column : Column}
    {content : Option α} (hread : (row column).nullable? read = some content)
    (columns : List Column) :
    (row.without columns column).nullable? read =
      some (if column ∈ columns then none else content) := by
  unfold without
  split
  · rfl
  · exact hread

/-- A row some of whose columns are without content is read as the record with the defaults of
these fields, as long as it has a local id. -/
theorem Row.device?_without {row : Row} {d : Device} (hrow : row.device? = some d)
    {columns : List Column} (hid : .localId ∉ columns) :
    (row.without columns).device? = some (d.without columns) := by
  simp only [device?, Option.bind_eq_bind, Option.bind_eq_some_iff, Option.pure_def,
    Option.some.injEq] at hrow
  obtain ⟨attributes, hattributes, localId, hlocalId, id, hid', name, hname, deviceTypeId,
    hdeviceTypeId, userId, huserId, hidden, hhidden, createdAt, hcreatedAt, updatedAt, hupdatedAt,
    rfl⟩ := hrow
  have hkey : row.without columns .localId = row .localId := if_neg hid
  simp only [device?, nullable?_without hattributes, hkey, hlocalId, nullable?_without hid',
    nullable?_without hname, nullable?_without hdeviceTypeId, nullable?_without huserId,
    nullable?_without hhidden, nullable?_without hcreatedAt, nullable?_without hupdatedAt,
    Option.bind_eq_bind, Option.bind_some, Option.pure_def, Device.without]
  congr 2 <;> split <;> rfl

/-- A record that is read from a row has its times in whole microseconds. -/
theorem Row.isWhole_of_device? {row : Row} {d : Device} (hrow : row.device? = some d) :
    d.IsWhole 1000 := by
  have htime {datum : Datum} {content : Option Instant}
      (h : datum.nullable? Datum.time? = some content) :
      (content.getD Instant.epoch).IsWhole 1000 := by
    cases datum with
    | null =>
      obtain rfl := Option.some.inj h
      exact ⟨by decide, by decide⟩
    | time micros =>
      obtain ⟨t, ht, rfl⟩ := Option.map_eq_some_iff.mp h
      exact Instant.isWhole_of_ofMicros? ht
    | _ => cases h
  simp only [device?, Option.bind_eq_bind, Option.bind_eq_some_iff, Option.pure_def,
    Option.some.injEq] at hrow
  obtain ⟨-, -, -, -, -, -, -, -, -, -, -, -, -, -, createdAt, hcreatedAt, updatedAt, hupdatedAt,
    rfl⟩ := hrow
  exact ⟨htime hcreatedAt, htime hupdatedAt⟩

end Postgres

namespace Backend

/-- What a record is read as once it was written to a database: from its document, or from the
row that the values bound to the statement's places are put into. -/
def kept? : Backend → Device → Option Device
  | mongo, d => Mongo.Document.device? (Mongo.Document.ofDevice d)
  | postgres, d =>
    Postgres.Row.device? (Postgres.Table.boundRow (Postgres.Query.bound
      { statement := .upsert, values := Postgres.Column.all.map (Postgres.Row.ofDevice d) }))

variable {d : Device}

theorem kept?_mongo (d : Device) : mongo.kept? d = some d.inMillis :=
  Mongo.device?_ofDevice d

theorem kept?_postgres (h : d.IsTimely) : postgres.kept? d = some d.inMicros := by
  rw [kept?, Postgres.Table.boundRow_ofDevice]
  exact Postgres.device?_ofDevice (Instant.isWhole_inMicros h.1).1 (Instant.isWhole_inMicros h.2).1

/-- Whole milliseconds and a list of attributes are kept in full by every database. -/
theorem kept?_of_isWhole (h : d.IsWhole 1000000) (hattributes : d.attributes.isSome)
    (b : Backend) : b.kept? d = some d := by
  cases b with
  | mongo => rw [kept?_mongo, Device.inMillis_of_isWhole h]
  | postgres =>
    rw [kept?_postgres h.isTimely,
      Device.inMicros_of_isWhole ⟨h.1.micros, h.2.micros⟩ hattributes]

/-- What a record becomes on its way through databases, from one to the next. -/
def carried? (way : List Backend) (d : Device) : Option Device :=
  way.foldlM (fun e b => b.kept? e) d

/-- What every database keeps in full is kept along every way. -/
theorem carried?_of_kept? (h : ∀ b : Backend, b.kept? d = some d) (way : List Backend) :
    carried? way d = some d := by
  induction way with
  | nil => rfl
  | cons b way ih =>
    rw [carried?, List.foldlM_cons, h b]
    exact ih

/-- What a database made of a record it makes nothing else of. -/
theorem kept?_of_kept? (h : d.IsTimely) {b : Backend} {e : Device} (hkept : b.kept? d = some e) :
    b.kept? e = some e := by
  cases b with
  | mongo =>
    rw [kept?_mongo] at hkept
    obtain rfl := Option.some.inj hkept
    rw [kept?_mongo, Device.inMillis_of_isWhole (Device.isWhole_inMillis h)]
  | postgres =>
    rw [kept?_postgres h] at hkept
    obtain rfl := Option.some.inj hkept
    have hwhole := Device.isWhole_inMicros h
    rw [kept?_postgres hwhole.isTimely, Device.inMicros_of_isWhole hwhole rfl]

theorem carried?_mongo_postgres (h : d.inMillis.IsTimely) :
    carried? [mongo, postgres] d = some d.inMillis.inMicros := by
  rw [carried?, List.foldlM_cons, kept?_mongo]
  change (postgres.kept? d.inMillis).bind _ = _
  rw [kept?_postgres h]
  rfl

theorem carried?_postgres_mongo (h : d.IsTimely) :
    carried? [postgres, mongo] d = some d.inMicros.inMillis := by
  rw [carried?, List.foldlM_cons, kept?_postgres h]
  change (mongo.kept? d.inMicros).bind _ = _
  rw [kept?_mongo]
  rfl

/-- After one database of each kind, in either order, a record has its times in whole
milliseconds and a list of attributes. -/
theorem exists_carried?_of_ne (h : d.IsTimely) {first second : Backend} (hother : first ≠ second) :
    ∃ e, carried? [first, second] d = some e ∧ e.IsWhole 1000000 ∧ e.attributes.isSome := by
  have hmillis := Device.isWhole_inMillis h
  have hmicros := Device.isWhole_inMicros h
  cases first with
  | mongo =>
    cases second with
    | mongo => exact absurd rfl hother
    | postgres => exact ⟨_, carried?_mongo_postgres hmillis.isTimely, hmillis.inMicros, rfl⟩
  | postgres =>
    cases second with
    | postgres => exact absurd rfl hother
    | mongo =>
      exact ⟨_, carried?_postgres_mongo h, Device.isWhole_inMillis hmicros.isTimely, rfl⟩

/-- A document is read as its record with each time replaced by the instant of its whole
milliseconds, and the text that word search looks at stands in it. A row is read as its record
with the empty list for a missing one, and whole microseconds outside leap seconds are as they
were. Neither changes its own work, and what has passed both, in either order, passes unchanged
along every further way between them. Columns without content are read as defaults. -/
theorem databases_lose_precision_only :
    (∀ d : Device,
      mongo.kept? d = some { d with
        createdAt := Instant.ofMillis d.createdAt.toMillis
        updatedAt := Instant.ofMillis d.updatedAt.toMillis } ∧
      (Mongo.Document.ofDevice d).valueAt .searchTokens = .text d.searchTokens) ∧
    (∀ d : Device, d.IsTimely →
      (∃ createdAt updatedAt, postgres.kept? d = some { d with
          attributes := some d.attributeList, createdAt, updatedAt } ∧
        (d.createdAt.IsWhole 1000 → createdAt = d.createdAt) ∧
        (d.updatedAt.IsWhole 1000 → updatedAt = d.updatedAt)) ∧
      (∀ (b : Backend) (e : Device), b.kept? d = some e → b.kept? e = some e) ∧
      ∀ first second : Backend, first ≠ second → ∃ e, carried? [first, second] d = some e ∧
        ∀ way, carried? way e = some e) ∧
    ∀ (row : Postgres.Row) (d : Device) (columns : List Postgres.Column),
      row.device? = some d → .localId ∉ columns →
        (row.without columns).device? = some (d.without columns) := by
  refine ⟨fun d => ⟨kept?_mongo d, rfl⟩, fun d h => ⟨?_, ?_, ?_⟩, ?_⟩
  · exact ⟨_, _, kept?_postgres h, Instant.inMicros_of_isWhole, Instant.inMicros_of_isWhole⟩
  · intro b e hkept
    exact kept?_of_kept? h hkept
  · intro first second hother
    obtain ⟨e, hcarried, hwhole, hattributes⟩ := exists_carried?_of_ne h hother
    exact ⟨e, hcarried, carried?_of_kept? (kept?_of_isWhole hwhole hattributes)⟩
  · intro row d columns hrow hid
    exact Postgres.Row.device?_without hrow hid

/-- A moment in the middle of a microsecond. -/
def roughMoment : Instant := ⟨1600000000, 123456789, by decide, by decide, by decide⟩

/-- A lamp without a list of attributes that was set up at that moment. -/
def roughLamp : Device := { localId := "lamp", name := "Hall", createdAt := roughMoment }

/-- The rough lamp is read from a collection with its time in whole milliseconds and from a table
with an empty list of attributes, and what it has lost it does not lose again. A row with nothing
but its local id is a lamp of that id. -/
theorem rough_lamp_settles :
    mongo.kept? roughLamp = some { roughLamp with createdAt := roughMoment.inMillis } ∧
    roughMoment.inMillis.nano = 123000000 ∧
    (∃ createdAt, postgres.kept? roughLamp =
      some { roughLamp with attributes := some [], createdAt }) ∧
    (∀ b e, Backend.kept? b roughLamp = some e → b.kept? e = some e) ∧
    (∃ e, carried? [postgres, mongo] roughLamp = some e ∧
      ∀ way, carried? way e = some e) ∧
    ((Postgres.Row.ofDevice (Device.named "lamp" "Hall")).without [.id, .name, .deviceTypeId,
      .attributes, .userId, .hidden, .createdAt, .updatedAt]).device? =
        some (Device.named "lamp" "") := by
  obtain ⟨hdocument, hpassed, hrow⟩ := databases_lose_precision_only
  obtain ⟨⟨createdAt, updatedAt, hkept, -, hupdated⟩, hagain, hway⟩ := hpassed roughLamp (by decide)
  refine ⟨(hdocument roughLamp).1, by decide, ⟨createdAt, ?_⟩, hagain, ?_, ?_⟩
  · rw [hkept, hupdated ⟨by decide, rfl⟩]
    rfl
  · exact hway postgres mongo (by decide)
  · exact hrow _ _ [.id, .name, .deviceTypeId, .attributes, .userId, .hidden, .createdAt,
      .updatedAt] (Postgres.device?_ofDevice rfl rfl) (by decide)

/-- The leap second with which time ends. -/
def lastLeapSecond : Instant := { Instant.last with nano := 1000000000, nano_lt := by decide }

/-- A lamp that was set up in it. -/
def lastLamp : Device := { localId := "lamp", createdAt := lastLeapSecond }

/-- The last lamp is read from its document as one set up in the very last nanosecond, which is no
whole number of milliseconds: read once more it is another one, also after it was kept in a row
in between. -/
theorem last_lamp_does_not_settle :
    mongo.kept? lastLamp = some { lastLamp with createdAt := Instant.last } ∧
    (∃ e, mongo.kept? lastLamp = some e ∧ mongo.kept? e ≠ some e) ∧
    ∃ e, carried? [mongo, postgres] lastLamp = some e ∧ carried? [mongo] e ≠ some e := by
  have hfirst : mongo.kept? lastLamp = some { lastLamp with createdAt := Instant.last } :=
    kept?_mongo lastLamp
  refine ⟨hfirst, ⟨_, hfirst, ?_⟩, _, carried?_mongo_postgres (by decide), ?_⟩
  · rw [kept?_mongo]
    decide
  · rw [carried?, List.foldlM_cons, kept?_mongo]
    decide

end Backend

end WaitingRoom
