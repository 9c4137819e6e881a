import WaitingRoom.Proofs.Store.Lookup
import WaitingRoom.Proofs.Store.Ordering
import WaitingRoom.Proofs.Time.Rounding

/-!
# The order of a listing

Records compare by the key asked for and then by local id, so any two records of a store
are told apart. Whatever stands for the records, in whatever order it is kept: filtered and
sorted alike, it stands for the listed records, and so does a window of it.
-/

namespace WaitingRoom

open Time (Instant)

/-- Options that make sense ask for no negative window. -/
theorem ListOptions.bounds_of_order {o : ListOptions} {order : SortOrder}
    (horder : o.order = .ok order) : 0 ≤ o.limit ∧ 0 ≤ o.offset := by
  unfold ListOptions.order at horder
  split at horder
  · cases horder
  · split at horder
    · cases horder
    · omega

instance : Std.TransCmp Instant.compareTo :=
  inferInstanceAs (Std.TransCmp
    (compareLex (compareOn Instant.second) (compareOn Instant.nano)))

namespace Device

instance (key : SortKey) : Std.TransCmp (compareBy key) := by
  cases key with
  | localId => exact transCmp_key compare localId
  | name => exact transCmp_key compare name
  | createdAt => exact transCmp_key Instant.compareTo createdAt
  | updatedAt => exact transCmp_key Instant.compareTo updatedAt

/-- Records compare by the key, in its direction, and then by local id. -/
theorem compareIn_eq (o : SortOrder) (a b : Device) : compareIn o a b =
    (directed o.descending (compareBy o.key a b)).then (compare a.localId b.localId) := rfl

/-- Where the local id is the key, comparing by it once more decides nothing. -/
theorem compareIn_localId {o : SortOrder} (hkey : o.key = .localId) (a b : Device) :
    compareIn o a b = directed o.descending (compare a.localId b.localId) := by
  rw [compareIn_eq, hkey, compareBy, directed]
  cases o.descending <;> cases compare a.localId b.localId <;> rfl

instance (o : SortOrder) : Std.TransCmp (compareIn o) := by
  have hkey := transCmp_directed (compareBy o.key) o.descending
  have hid : Std.TransCmp fun a b : Device => compare a.localId b.localId :=
    transCmp_key compare localId
  exact inferInstanceAs (Std.TransCmp
    (compareLex (fun a b => directed o.descending (compareBy o.key a b))
      fun a b => compare a.localId b.localId))

/-- Records that compare as equal have the same local id. -/
theorem localId_eq_of_compareIn {o : SortOrder} {a b : Device} (h : compareIn o a b = .eq) :
    a.localId = b.localId := by
  have hlast := (Ordering.then_eq_eq.mp h).2
  exact Std.LawfulEqCmp.eq_of_compare hlast

/-- A record both of whose times are whole numbers of units, outside leap seconds. -/
def IsWhole (unit : Nat) (d : Device) : Prop :=
  d.createdAt.IsWhole unit ∧ d.updatedAt.IsWhole unit

end Device

/-- Two records of a store neither of which comes after the other are the same. -/
theorem Store.eq_of_compareIn {s : Store} {o : SortOrder} {a b : Device} (ha : a ∈ s.records)
    (hb : b ∈ s.records) (hab : (Device.compareIn o a b).isLE)
    (hba : (Device.compareIn o b a).isLE) : a = b := by
  have hid := Device.localId_eq_of_compareIn (Std.OrientedCmp.isLE_antisymm hab hba)
  have hfound := find?_of_mem hb
  rw [← hid, find?_of_mem ha] at hfound
  exact Option.some.inj hfound

/-- The window of what a function gives is what it gives in the window. -/
theorem window_map {α β : Type} (f : α → β) (offset limit : Int) (items : List α) :
    window offset limit (items.map f) = (window offset limit items).map f := by
  unfold window
  dsimp only
  split
  · rfl
  · split <;> simp [List.map_drop, List.map_take]

/-- A window without room lets nothing through. -/
theorem window_zero {α : Type} (offset : Int) (items : List α) : window offset 0 items = [] := by
  simp [window]

theorem mem_of_mem_window {α : Type} {x : α} {offset limit : Int} {items : List α}
    (h : x ∈ window offset limit items) : x ∈ items := by
  unfold window at h
  dsimp only at h
  split at h
  · cases h
  · split at h
    · exact List.mem_of_mem_drop h
    · exact List.mem_of_mem_drop (List.mem_of_mem_take h)

/-- What is read from what was laid down is what each item is read as. -/
theorem mapM_map_eq_some_map {α β γ : Type} {f : α → β} {read : β → Option γ} {g : α → γ}
    {items : List α} (h : ∀ x ∈ items, read (f x) = some (g x)) :
    (items.map f).mapM read = some (items.map g) := by
  induction items with
  | nil => rfl
  | cons x rest ih =>
    obtain ⟨hx, hrest⟩ := List.forall_mem_cons.mp h
    rw [List.map_cons, List.mapM_cons, hx, ih hrest]
    rfl

/-- What is read from what was laid down is what it was laid down from, if each item is. -/
theorem mapM_map_eq_some {α β : Type} {f : α → β} {read : β → Option α} {items : List α}
    (h : ∀ x ∈ items, read (f x) = some x) : (items.map f).mapM read = some items := by
  rw [mapM_map_eq_some_map (g := fun x => x) h, List.map_id']

section Sorting

variable {α β : Type} {f : α → β} {before : α → α → Bool} {rowBefore : β → β → Bool}
  {items : List α} {rows : List β}

/-- If rows stand for items that the order tells apart, the sorted rows stand for the sorted
items. -/
theorem mergeSort_map_of_perm (hrows : rows.Perm (items.map f))
    (hsame : ∀ a ∈ items, ∀ b ∈ items, rowBefore (f a) (f b) = before a b)
    (hanti : ∀ a ∈ items, ∀ b ∈ items, before a b → before b a → a = b)
    (htrans : ∀ a b c, before a b → before b c → before a c)
    (htotal : ∀ a b, (before a b || before b a) = true)
    (hrowTrans : ∀ a b c, rowBefore a b → rowBefore b c → rowBefore a c)
    (hrowTotal : ∀ a b, (rowBefore a b || rowBefore b a) = true) :
    rows.mergeSort rowBefore = (items.mergeSort before).map f := by
  have hitems := List.mergeSort_perm items before
  have hperm : (rows.mergeSort rowBefore).Perm ((items.mergeSort before).map f) :=
    (List.mergeSort_perm rows rowBefore).trans (hrows.trans (hitems.symm.map f))
  refine List.Perm.eq_of_pairwise ?_ (List.pairwise_mergeSort hrowTrans hrowTotal rows) ?_ hperm
  · intro a b ha hb hab hba
    obtain ⟨x, hx, rfl⟩ := List.mem_map.mp (hperm.mem_iff.mp ha)
    obtain ⟨y, hy, rfl⟩ := List.mem_map.mp hb
    have hx := hitems.mem_iff.mp hx
    have hy := hitems.mem_iff.mp hy
    rw [hsame x hx y hy] at hab
    rw [hsame y hy x hx] at hba
    rw [hanti x hx y hy hab hba]
  · rw [List.pairwise_map]
    refine (List.pairwise_mergeSort htrans htotal items).imp_of_mem fun hx hy hxy => ?_
    rw [hsame _ (hitems.mem_iff.mp hx) _ (hitems.mem_iff.mp hy)]
    exact hxy

end Sorting

section Standing

variable {β : Type} {f : Device → β} {s : Store} {rows : List β} {met : β → Bool}
  {listed : Device → Bool}

/-- If rows stand for the records of a store, the rows that are met stand for the records that
are listed. -/
theorem Store.filter_perm (hrows : rows.Perm (s.records.map f))
    (hmet : ∀ d ∈ s.records, met (f d) = listed d) :
    (rows.filter met).Perm ((s.records.filter listed).map f) := by
  have hsame : s.records.filter (met ∘ f) = s.records.filter listed := List.filter_congr hmet
  rw [← hsame, ← List.filter_map]
  exact hrows.filter met

/-- In an order in which they compare as the records do, they stand for those in that order. -/
theorem Store.mergeSort_filter (hrows : rows.Perm (s.records.map f))
    (hmet : ∀ d ∈ s.records, met (f d) = listed d) {cmp : β → β → Ordering} [Std.TransCmp cmp]
    {order : SortOrder}
    (hcmp : ∀ a ∈ s.records, ∀ b ∈ s.records, cmp (f a) (f b) = Device.compareIn order a b) :
    ((rows.filter met).mergeSort fun a b => (cmp a b).isLE) =
      ((s.records.filter listed).mergeSort fun a b => (Device.compareIn order a b).isLE).map f := by
  have hmem {d : Device} (hd : d ∈ s.records.filter listed) : d ∈ s.records :=
    (List.mem_filter.mp hd).1
  apply mergeSort_map_of_perm (Store.filter_perm hrows hmet)
  · exact fun a ha b hb => congrArg Ordering.isLE (hcmp a (hmem ha) b (hmem hb))
  · exact fun a ha b hb hab hba => Store.eq_of_compareIn (hmem ha) (hmem hb) hab hba
  · exact fun _ _ _ => Std.TransCmp.isLE_trans
  · exact isLE_total _
  · exact fun _ _ _ => Std.TransCmp.isLE_trans
  · exact isLE_total _

/-- As many rows are met as records are listed. -/
theorem Store.length_filter_eq {user : String} {o : ListOptions} (order : SortOrder)
    (hrows : rows.Perm (s.records.map f))
    (hmet : ∀ d ∈ s.records, met (f d) = d.isListed user o) :
    (rows.filter met).length = (s.matching user o order).length := by
  rw [(Store.filter_perm hrows hmet).length_eq, List.length_map, Store.matching,
    List.length_mergeSort]

theorem Store.mem_of_mem_matching {user : String} {o : ListOptions} {order : SortOrder}
    {d : Device} (hd : d ∈ s.matching user o order) : d ∈ s.records :=
  (List.mem_filter.mp ((List.mergeSort_perm ..).mem_iff.mp hd)).1

end Standing

end WaitingRoom
