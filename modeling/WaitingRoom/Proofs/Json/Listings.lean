import WaitingRoom.Proofs.Json.Devices

/-!
# Listings as JSON

A listing that was written as JSON is read as a record that holds it, whatever the numbers in it
are: a member for each of its fields and no others, with the search text left out where it is
empty. A record holds but one listing.
-/

namespace WaitingRoom

open Json (Value HasJust Lacks)

namespace DeviceList

/-- Whether the members of a record hold a listing: one for each of its fields, and no others. The
records in the window are read as they stand there, in their order. -/
structure IsHeldBy (l : DeviceList) (members : List (Value × Value)) : Prop where
  total : ∃ v, HasJust members "total" v ∧ v.IsInt l.total
  limit : ∃ v, HasJust members "limit" v ∧ v.IsInt l.limit
  offset : ∃ v, HasJust members "offset" v ∧ v.IsInt l.offset
  sort : HasJust members "sort" (.text (some l.sort))
  search : l.search ≠ "" ∧ HasJust members "search" (.text (some l.search)) ∨
    l.search = "" ∧ Lacks members "search"
  result : ∃ v, HasJust members "result" v ∧ Web.devices v = .ok l.result
  only : ∀ m ∈ members, ∃ name ∈ ["total", "limit", "offset", "sort", "search", "result"],
    m.1 = .text (some name)

variable {l l' : DeviceList} {members : List (Value × Value)}

/-- A record holds but one listing. -/
theorem IsHeldBy.unique (h : l.IsHeldBy members) (h' : l'.IsHeldBy members) : l = l' := by
  have hinteger {name : String} {i i' : Int} (hv : ∃ v, HasJust members name v ∧ v.IsInt i)
      (hv' : ∃ v, HasJust members name v ∧ v.IsInt i') : i = i' := by
    obtain ⟨v, hjust, hi⟩ := hv
    obtain ⟨v', hjust', hi'⟩ := hv'
    obtain rfl := hjust.unique hjust'
    exact hi.unique hi'
  have htext {name s s' : String} (hjust : HasJust members name (.text (some s)))
      (hjust' : HasJust members name (.text (some s'))) : s = s' :=
    Option.some.inj (Value.text.inj (hjust.unique hjust'))
  have htotal := hinteger h.total h'.total
  have hlimit := hinteger h.limit h'.limit
  have hoffset := hinteger h.offset h'.offset
  have hsort := htext h.sort h'.sort
  have hsearch : l.search = l'.search := by
    rcases h.search with ⟨_, hjust⟩ | ⟨hempty, hlacks⟩ <;>
      rcases h'.search with ⟨_, hjust'⟩ | ⟨hempty', hlacks'⟩
    · exact htext hjust hjust'
    · exact absurd rfl (hlacks' _ hjust.mem)
    · exact absurd rfl (hlacks _ hjust'.mem)
    · rw [hempty, hempty']
  have hresult : l.result = l'.result := by
    obtain ⟨v, hjust, hread⟩ := h.result
    obtain ⟨v', hjust', hread'⟩ := h'.result
    obtain rfl := hjust.unique hjust'
    exact Except.ok.inj (hread.symm.trans hread')
  cases l
  cases l'
  rw [DeviceList.mk.injEq]
  exact ⟨htotal, hlimit, hoffset, hsort, hsearch, hresult⟩

/-! ## Listings that are written -/

/-- The names of the members of a listing that is written. -/
def keys (l : DeviceList) : List String :=
  ["total", "limit", "offset", "sort"] ++ (if l.search = "" then [] else ["search"]) ++ ["result"]

/-- They are names of fields, in their order. -/
theorem keys_sublist (l : DeviceList) :
    l.keys.Sublist ["total", "limit", "offset", "sort", "search", "result"] := by
  unfold keys
  split <;> decide

/-- The members of a listing that is written hold it. -/
theorem exists_isHeldBy (l : DeviceList) :
    ∃ members, l.toJson = .record members ∧ l.IsHeldBy members := by
  let written : List (String × Value) :=
    [("total", .ofInt l.total), ("limit", .ofInt l.limit), ("offset", .ofInt l.offset),
      ("sort", .ofString l.sort)] ++
    (if l.search.isEmpty then [] else [("search", .ofString l.search)]) ++
    [("result", .list (l.result.map Device.toJson))]
  have hkeys : written.map Prod.fst = l.keys := by
    by_cases hempty : l.search = "" <;> simp [written, keys, hempty]
  have hdistinct : (written.map Prod.fst).Nodup := by
    rw [hkeys]
    exact List.Nodup.sublist l.keys_sublist (by decide)
  have hjust {name : String} {v : Value} (hmem : (name, v) ∈ written) :=
    Json.hasJust_ofMembers hdistinct hmem
  refine ⟨_, rfl, ?_, ?_, ?_, ?_, ?_, ?_, ?_⟩
  · exact ⟨_, hjust (by simp [written]), Value.isInt_ofInt l.total⟩
  · exact ⟨_, hjust (by simp [written]), Value.isInt_ofInt l.limit⟩
  · exact ⟨_, hjust (by simp [written]), Value.isInt_ofInt l.offset⟩
  · exact hjust (by simp [written, Value.ofString])
  · by_cases hempty : l.search = ""
    · have hlacks : "search" ∉ written.map Prod.fst := by simp [hkeys, keys, hempty]
      exact .inr ⟨hempty, Json.lacks_ofMembers hlacks⟩
    · exact .inl ⟨hempty, hjust (by simp [written, Value.ofString, hempty])⟩
  · have hresult : ("result", .list (l.result.map Device.toJson)) ∈ written := by simp [written]
    exact ⟨_, hjust hresult, Json.asList_map Device.ofJson_toJson l.result⟩
  · rw [List.forall_mem_map]
    rintro ⟨key, v⟩ hmem
    have hkey : key ∈ l.keys := by
      rw [← hkeys]
      exact List.mem_map.mpr ⟨_, hmem, rfl⟩
    exact ⟨key, l.keys_sublist.subset hkey, rfl⟩

theorem isPlain_toJson (l : DeviceList) : l.toJson.isPlain = true := by
  have hresult : Json.itemsArePlain (l.result.map Device.toJson) = true :=
    Json.isPlain_list Device.isPlain_toJson l.result
  by_cases hempty : l.search = "" <;>
    simp [toJson, hempty, hresult, Value.ofMembers, Value.ofString, Value.ofInt, Value.isPlain,
      Json.membersArePlain, Json.Numeral.isPlain_ofInt]

/-- A listing that is written is read as a record that holds it. -/
theorem exists_readText_render (l : DeviceList) :
    ∃ members, Json.readText l.toJson.render = ⟨.record members, true⟩ ∧ l.IsHeldBy members := by
  obtain ⟨members, hjson, hheld⟩ := l.exists_isHeldBy
  exact ⟨members, by rw [Json.readText_render l.isPlain_toJson, hjson], hheld⟩

end DeviceList

end WaitingRoom
