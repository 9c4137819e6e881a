import WaitingRoom.Json.Decode

/-!
# The members of a record

A record is read member by member. One that is written with a value for each of its fields is read
field by field, and what is read of any record is what the one member says that has the name of
each field, or, where the field may be absent, what was there before if there is no such member.
-/

namespace WaitingRoom

open Json (Value Decoded)

theorem ok_bind {ε α β : Type} (a : α) (f : α → Except ε β) : (Except.ok a >>= f) = f a := rfl

theorem error_bind {ε α β : Type} (e : ε) (f : α → Except ε β) :
    (Except.error e >>= f) = .error e := rfl

/-- Two steps that succeed one after the other each succeed. -/
theorem exists_of_bind_eq_ok {ε α β : Type} {x : Except ε α} {f : α → Except ε β} {b : β}
    (h : (x >>= f) = .ok b) : ∃ a, x = .ok a ∧ f a = .ok b := by
  cases x with
  | error e => cases h
  | ok a => exact ⟨a, rfl, h⟩

theorem bind_eq_ok_iff {ε α β : Type} {x : Except ε α} {f : α → Except ε β} {b : β} :
    (x >>= f) = .ok b ↔ ∃ a, x = .ok a ∧ f a = .ok b := by
  refine ⟨exists_of_bind_eq_ok, ?_⟩
  rintro ⟨a, rfl, h⟩
  exact h

namespace Json

/-- What is decoded from a source is read from its value. -/
theorem read_of_decodeSource {α : Type} {read : Value → Decoded α} {source : Source} {a : α}
    (h : decodeSource read source = .ok a) : read (readSource source).value = .ok a := by
  obtain ⟨result, hread, hclean⟩ := exists_of_bind_eq_ok h
  split at hclean
  · rwa [← Except.ok.inj hclean]
  · cases hclean

theorem asText_ofString (s : String) : Value.asText (.ofString s) = .ok s := rfl

/-- A value that is read as a text is that text. -/
theorem eq_of_asText {v : Value} {s : String} (h : v.asText = .ok s) : v = .text (some s) := by
  rcases v with _ | _ | _ | (_ | s') | _ | _ | _ <;> cases h
  rfl

/-! ## Records that are written -/

/-- A member that names a field not seen before is read into the record. -/
theorem Member.readMembers_cons {α β : Type} {fields : List (Member α)} {seen : List String}
    {key : String} {read : Value → Decoded β} {put : α → β → α} {absence : Absence} {v : Value}
    {b : β} (hread : read v = .ok b)
    (hfield : fields.find? (fun f => f.name == key) = some (.of key read put absence))
    (hseen : seen.contains key = false) (record : α) (rest : List (Value × Value)) :
    readMembers fields seen record ((.ofString key, v) :: rest) =
      readMembers fields (key :: seen) (put record b) rest := by
  rw [Value.ofString, readMembers, hfield]
  simp only [hseen, Member.of, hread]
  rfl

/-! ## Records that are read -/

/-- Whether just one of some members has a name, and with which value. -/
def HasJust (members : List (Value × Value)) (name : String) (v : Value) : Prop :=
  ∃ before after, members = before ++ (.text (some name), v) :: after ∧
    ∀ m ∈ before ++ after, m.1 ≠ .text (some name)

/-- Whether none of some members has a name. -/
def Lacks (members : List (Value × Value)) (name : String) : Prop :=
  ∀ m ∈ members, m.1 ≠ .text (some name)

variable {members : List (Value × Value)} {name : String} {v w : Value}

/-- A member with another name makes no difference to that. -/
theorem HasJust.cons {m : Value × Value} (hm : m.1 ≠ .text (some name))
    (h : HasJust members name v) : HasJust (m :: members) name v := by
  obtain ⟨before, after, rfl, hothers⟩ := h
  exact ⟨m :: before, after, rfl, List.forall_mem_cons.mpr ⟨hm, hothers⟩⟩

theorem HasJust.mem (h : HasJust members name v) : (.text (some name), v) ∈ members := by
  obtain ⟨before, after, rfl, -⟩ := h
  exact List.mem_append_right before List.mem_cons_self

/-- There is but one member with the name. -/
theorem HasJust.eq_of_mem (h : HasJust members name v) (hw : (.text (some name), w) ∈ members) :
    w = v := by
  obtain ⟨before, after, rfl, hothers⟩ := h
  rcases List.mem_append.mp hw with hbefore | hrest
  · exact absurd rfl (hothers _ (List.mem_append_left after hbefore))
  · rcases List.mem_cons.mp hrest with heq | hafter
    · exact congrArg Prod.snd heq
    · exact absurd rfl (hothers _ (List.mem_append_right before hafter))

theorem HasJust.unique (h : HasJust members name v) (h' : HasJust members name w) : v = w :=
  h'.eq_of_mem h.mem

/-- Of a record that is written with different keys, just one member has the name of each. -/
theorem hasJust_ofMembers {written : List (String × Value)}
    (hdistinct : (written.map Prod.fst).Nodup) (hmem : (name, v) ∈ written) :
    HasJust (written.map fun (key, value) => (.ofString key, value)) name v := by
  obtain ⟨before, after, rfl⟩ := List.append_of_mem hmem
  refine ⟨_, _, List.map_append, ?_⟩
  rw [← List.map_append, List.forall_mem_map]
  rintro ⟨key, value⟩ hother hkey
  obtain rfl : key = name := Option.some.inj (Value.text.inj hkey)
  rw [List.map_append, List.map_cons] at hdistinct
  refine (List.nodup_cons.mp (List.perm_middle.nodup hdistinct)).1 ?_
  rw [← List.map_append]
  exact List.mem_map.mpr ⟨_, hother, rfl⟩

/-- A name that is none of the keys has no member. -/
theorem lacks_ofMembers {written : List (String × Value)} (h : name ∉ written.map Prod.fst) :
    Lacks (written.map fun (key, value) => (.ofString key, value)) name := by
  rw [Lacks, List.forall_mem_map]
  rintro ⟨key, value⟩ hmem hkey
  obtain rfl : key = name := Option.some.inj (Value.text.inj hkey)
  exact h (List.mem_map.mpr ⟨_, hmem, rfl⟩)

/-- Whether reading a field leaves something about the record as it is. -/
def Member.Keeps {α β : Type} (field : Member α) (get : α → β) : Prop :=
  ∀ record v record', field.read record v = .ok record' → get record' = get record

/-- A field that is read stores its value in the record. -/
theorem Member.exists_of_read {α β : Type} {read : Value → Decoded β} {put : α → β → α}
    {absence : Absence} {record record' : α}
    (h : (Member.of name read put absence).read record v = .ok record') :
    ∃ b, read v = .ok b ∧ put record b = record' := by
  change (read v).map (put record) = .ok record' at h
  cases hvalue : read v with
  | error f =>
    rw [hvalue] at h
    cases h
  | ok b =>
    rw [hvalue] at h
    exact ⟨b, rfl, Except.ok.inj h⟩

/-- A field leaves as it is what its value is not stored in. -/
theorem Member.Keeps.of {α β γ : Type} {get : α → γ} {read : Value → Decoded β}
    {put : α → β → α} {absence : Absence} (hput : ∀ record b, get (put record b) = get record) :
    (Member.of name read put absence).Keeps get := by
  intro record v record' hread
  obtain ⟨b, -, rfl⟩ := Member.exists_of_read hread
  exact hput record b

/-- Members are read one by one: the key of the first is a text, and it names no field, or one that
was not seen before and is read into the record. -/
theorem Member.exists_of_readMembers_cons {α : Type} {fields : List (Member α)}
    {seen : List String} {record result : α} {m : Value × Value}
    (h : readMembers fields seen record (m :: members) = .ok result) :
    ∃ key, m.1 = .text (some key) ∧
      (fields.find? (fun f => f.name == key) = none ∧
          readMembers fields seen record members = .ok result ∨
        ∃ field record', fields.find? (fun f => f.name == key) = some field ∧
          seen.contains key = false ∧ field.read record m.2 = .ok record' ∧
          readMembers fields (key :: seen) record' members = .ok result) := by
  obtain ⟨key, v⟩ := m
  -- only a text that can be decoded is taken for a key
  rcases key with _ | _ | _ | (_ | key) | _ | _ | _ <;> try cases h
  refine ⟨key, rfl, ?_⟩
  rw [readMembers] at h
  cases hfind : fields.find? (fun f => f.name == key) with
  | none =>
    simp only [hfind] at h
    split at h
    · exact .inl ⟨rfl, h⟩
    · cases h
  | some field =>
    simp only [hfind] at h
    split at h
    · cases h
    · rename_i hnew
      obtain ⟨record', hread, hrest⟩ := exists_of_bind_eq_ok h
      exact .inr ⟨field, record', rfl, by simpa using hnew, hread, hrest⟩

/-- What some members make of a field. If it was seen before, they leave it as it is and none has
its name. Otherwise one of them has its name and gives it its value, or, where it may be absent,
again they leave it as it is and none has its name. -/
structure Settle {β : Type} (members : List (Value × Value)) (name : String) (absence : Absence)
    (read : Value → Decoded β) (seen : List String) (before after : β) : Prop where
  kept : seen.contains name = true → after = before ∧ Lacks members name
  read : seen.contains name = false → (∃ v, HasJust members name v ∧ read v = .ok after) ∨
    absence ≠ .refused ∧ after = before ∧ Lacks members name

section Settle

variable {β : Type} {absence : Absence} {read : Value → Decoded β} {seen seen' : List String}
  {before after : β}

/-- A member with another name makes no difference to a field. -/
theorem Settle.cons {key : String} (hkey : key ≠ name)
    (hseen : seen'.contains name = seen.contains name)
    (h : Settle members name absence read seen' before after) :
    Settle ((.text (some key), v) :: members) name absence read seen before after := by
  have hother : (Value.text (some key), v).1 ≠ .text (some name) := by
    rintro ⟨⟩
    exact hkey rfl
  constructor
  · intro hcontains
    obtain ⟨hsame, hlacks⟩ := h.kept (hseen.trans hcontains)
    exact ⟨hsame, List.forall_mem_cons.mpr ⟨hother, hlacks⟩⟩
  · intro hcontains
    rcases h.read (hseen.trans hcontains) with ⟨v', hjust, hread⟩ | ⟨habsence, hsame, hlacks⟩
    · exact .inl ⟨v', hjust.cons hother, hread⟩
    · exact .inr ⟨habsence, hsame, List.forall_mem_cons.mpr ⟨hother, hlacks⟩⟩

/-- A field that must be there is given its value. -/
theorem Settle.exists_of_refused (h : Settle members name .refused read seen before after)
    (hseen : seen.contains name = false) : ∃ v, HasJust members name v ∧ read v = .ok after :=
  (h.read hseen).resolve_right fun habsent => habsent.1 rfl

end Settle

/-- A field is settled by the members that a record is read from. -/
theorem settle_of_readMembers {α β : Type} {fields : List (Member α)} {read : Value → Decoded β}
    {put : α → β → α} {get : α → β} {absence : Absence}
    (hfield : fields.find? (fun f => f.name == name) = some (.of name read put absence))
    (hget : ∀ record b, get (put record b) = b)
    (hothers : ∀ field ∈ fields, field.name ≠ name → field.Keeps get)
    {seen : List String} {record result : α}
    (h : Member.readMembers fields seen record members = .ok result) :
    Settle members name absence read seen (get record) (get result) := by
  induction members generalizing seen record with
  | nil =>
    rw [Member.readMembers] at h
    split at h
    · rename_i hall
      cases h
      have hpresent := List.all_eq_true.mp hall _ (List.mem_of_find?_eq_some hfield)
      refine ⟨fun _ => ⟨rfl, fun _ hm => nomatch hm⟩, fun hunseen => .inr ⟨?_, rfl, ?_⟩⟩
      · rintro rfl
        have hseen : seen.contains name = true := hpresent
        rw [hunseen] at hseen
        cases hseen
      · exact fun _ hm => nomatch hm
    · cases h
  | cons m rest ih =>
    obtain ⟨key, v⟩ := m
    obtain ⟨key, rfl, ⟨hfind, hrest⟩ | ⟨field, record', hfind, hnew, hread, hrest⟩⟩ :=
      Member.exists_of_readMembers_cons h
    · have hkey : key ≠ name := by
        rintro rfl
        rw [hfield] at hfind
        cases hfind
      exact (ih hrest).cons hkey rfl
    · have hnext := ih hrest
      by_cases hkey : key = name
      · subst hkey
        obtain rfl : Member.of key read put absence = field :=
          Option.some.inj (hfield.symm.trans hfind)
        obtain ⟨hsame, hlacks⟩ := hnext.kept (by simp)
        obtain ⟨b, hb, rfl⟩ := Member.exists_of_read hread
        refine ⟨fun hseen => ?_, fun _ => .inl ⟨v, ⟨[], rest, rfl, hlacks⟩, ?_⟩⟩
        · rw [hnew] at hseen
          cases hseen
        · rw [hsame, hget, hb]
      · have hname : field.name ≠ name := by
          have hfound := List.find?_some hfind
          simp only [beq_iff_eq] at hfound
          rwa [hfound]
        rw [hothers field (List.mem_of_find?_eq_some hfind) hname _ _ _ hread] at hnext
        refine hnext.cons hkey ?_
        simp [Ne.symm hkey]

/-- Members leave as it is what no field stores anything in. -/
theorem get_of_readMembers {α β : Type} {get : α → β} {fields : List (Member α)}
    (hkeeps : ∀ field ∈ fields, field.Keeps get) {seen : List String} {record result : α}
    (h : Member.readMembers fields seen record members = .ok result) :
    get result = get record := by
  induction members generalizing seen record with
  | nil =>
    rw [Member.readMembers] at h
    split at h
    · cases h
      rfl
    · cases h
  | cons m rest ih =>
    obtain ⟨key, -, ⟨-, hrest⟩ | ⟨field, record', hfind, -, hread, hrest⟩⟩ :=
      Member.exists_of_readMembers_cons h
    · exact ih hrest
    · rw [ih hrest, hkeeps field (List.mem_of_find?_eq_some hfind) _ _ _ hread]

/-! ## Records that are given by position -/

/-- Reading fields by position leaves as it is what none of them stores anything in. -/
theorem get_of_readPositions {α β : Type} {get : α → β} {fields : List (Member α)}
    (hkeeps : ∀ field ∈ fields, field.Keeps get) {items : List Value} {record result : α}
    (h : Member.readPositions record fields items = .ok result) : get result = get record := by
  induction fields generalizing items record with
  | nil =>
    cases items with
    | nil =>
      cases h
      rfl
    | cons => cases h
  | cons field fields ih =>
    obtain ⟨hfield, hfields⟩ := List.forall_mem_cons.mp hkeeps
    cases items with
    | nil =>
      rw [Member.readPositions] at h
      split at h
      · exact ih hfields h
      · cases h
    | cons v rest =>
      obtain ⟨record', hread, hrest⟩ := exists_of_bind_eq_ok h
      rw [ih hfields hrest, hfield _ _ _ hread]

/-- A field that has to be there is given the value in its place, if none behind it stores anything
where it does. -/
theorem exists_of_readPositions {α β : Type} {read : Value → Decoded β} {put : α → β → α}
    {get : α → β} {absence : Absence} {before after : List (Member α)}
    (habsence : absence ≠ .allowed) (hget : ∀ record b, get (put record b) = b)
    (hafter : ∀ field ∈ after, field.Keeps get) {items : List Value} {record result : α}
    (h : Member.readPositions record (before ++ .of name read put absence :: after) items =
      .ok result) :
    ∃ v, items[before.length]? = some v ∧ read v = .ok (get result) := by
  induction before generalizing items record with
  | nil =>
    cases items with
    | nil =>
      rw [List.nil_append, Member.readPositions] at h
      split at h
      · rename_i hallowed
        exact absurd (eq_of_beq hallowed) habsence
      · cases h
    | cons v rest =>
      obtain ⟨record', hread, hrest⟩ := exists_of_bind_eq_ok h
      obtain ⟨b, hb, rfl⟩ := Member.exists_of_read hread
      refine ⟨v, rfl, ?_⟩
      rw [get_of_readPositions hafter hrest, hget, hb]
  | cons field before ih =>
    cases items with
    | nil =>
      rw [List.cons_append, Member.readPositions] at h
      split at h
      · obtain ⟨v, hv, -⟩ := ih h
        cases hv
      · cases h
    | cons w rest =>
      obtain ⟨record', -, hrest⟩ := exists_of_bind_eq_ok h
      obtain ⟨v, hv, hread⟩ := ih hrest
      exact ⟨v, by simpa using hv, hread⟩

end Json

end WaitingRoom
