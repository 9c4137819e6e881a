import Mathlib.Data.List.Perm.Basic
import Mathlib.Data.String.Basic
import WaitingRoom.Proofs.Store.Overlay
import WaitingRoom.Proofs.Store.Ranking

/-!
# Listings as windows

The records that count in a listing stand in one order: by the key asked for, in its direction,
and by ascending local id where that does not tell two of them apart. A listing is a window of
them, so what it shows depends on the records that are stored and not on how they came to be,
and windows that lie side by side show each of them once.
-/

namespace WaitingRoom

/-! ## What counts -/

namespace Device

/-- Whether a record is to count in a listing for a user: it is the user's, it is not hidden
unless hidden ones are asked for, and the words to search for, without the blanks around them,
occur in its local id or its name if any are left, in lower case. -/
structure Counts (d : Device) (user : String) (o : ListOptions) : Prop where
  owner : d.userId = user
  shown : d.hidden = true → o.showHidden = true
  found : Text.trim o.search ≠ "" →
    Text.lowerCase (Text.trim o.search) <:+: Text.lowerCase d.localId ∨
    Text.lowerCase (Text.trim o.search) <:+: Text.lowerCase d.name

/-- The records that count are those that are listed. -/
theorem isListed_iff {d : Device} {user : String} {o : ListOptions} :
    d.isListed user o = true ↔ d.Counts user o := by
  have hkept : (d.isOwnedBy user && (o.showHidden || !d.hidden)) = true ↔
      d.userId = user ∧ (d.hidden = true → o.showHidden = true) := by
    cases hhidden : d.hidden <;> simp [isOwnedBy]
  rw [isListed, Bool.and_eq_true, hkept]
  by_cases hblank : Text.trim o.search = ""
  · have hterm : o.searchTerm = none := by simp [ListOptions.searchTerm, hblank]
    simp only [hterm, and_true]
    exact ⟨fun h => ⟨h.1, h.2, fun hsome => absurd hblank hsome⟩, fun h => ⟨h.owner, h.shown⟩⟩
  · have hterm : o.searchTerm = some (Text.trim o.search) := by
      simp [ListOptions.searchTerm, hblank]
    simp only [hterm, mentions, Bool.or_eq_true, Text.occursIn_iff]
    exact ⟨fun h => ⟨h.1.1, h.1.2, fun _ => h.2⟩,
      fun h => ⟨⟨h.owner, h.shown⟩, h.found hblank⟩⟩

/-! ## In which order -/

/-- Whether the key of a record is less than that of another. -/
def KeyLt (a b : Device) : SortKey → Prop
  | .localId => a.localId < b.localId
  | .name => a.name < b.name
  | .createdAt => a.createdAt.isBefore b.createdAt = true
  | .updatedAt => a.updatedAt.isBefore b.updatedAt = true

/-- Whether a record comes before another: its key comes first in the direction asked for, or
neither key does and its local id is less. -/
def ComesBefore (order : SortOrder) (a b : Device) : Prop :=
  (if order.descending then KeyLt b a order.key else KeyLt a b order.key) ∨
    (¬ KeyLt a b order.key ∧ ¬ KeyLt b a order.key) ∧ a.localId < b.localId

/-- Texts compare as less if they are. -/
theorem compare_text_eq_lt {a b : String} : compare a b = .lt ↔ a < b := compare_lt_iff_lt

theorem compareTo_eq_lt {a b : Time.Instant} : a.compareTo b = .lt ↔ a.isBefore b = true := by
  simp [Time.Instant.compareTo, Time.Instant.isBefore, Ordering.then_eq_lt, compare_lt_iff_lt]

theorem compareBy_eq_lt {key : SortKey} {a b : Device} :
    compareBy key a b = .lt ↔ KeyLt a b key := by
  cases key with
  | localId | name => exact compare_text_eq_lt
  | createdAt | updatedAt => exact compareTo_eq_lt

theorem compareBy_eq_gt {key : SortKey} {a b : Device} :
    compareBy key a b = .gt ↔ KeyLt b a key := by
  rw [← compareBy_eq_lt]
  exact Std.OrientedCmp.gt_iff_lt

/-- Records compare as less if they come before. -/
theorem compareIn_eq_lt {order : SortOrder} {a b : Device} :
    compareIn order a b = .lt ↔ ComesBefore order a b := by
  have htie : compareBy order.key a b = .eq ↔ ¬ KeyLt a b order.key ∧ ¬ KeyLt b a order.key := by
    rw [← compareBy_eq_lt, ← compareBy_eq_gt]
    cases compareBy order.key a b <;> simp
  rw [compareIn_eq, Ordering.then_eq_lt, compare_text_eq_lt, ComesBefore, ← htie, directed]
  cases order.descending with
  | false => simp [compareBy_eq_lt]
  | true => simp [compareBy_eq_gt]

variable {order : SortOrder} {a b : Device}

theorem ComesBefore.asymm (h : ComesBefore order a b) : ¬ ComesBefore order b a := by
  rw [← compareIn_eq_lt] at h ⊢
  exact Std.OrientedCmp.not_lt_of_lt h

theorem ComesBefore.trans {c : Device} (hab : ComesBefore order a b)
    (hbc : ComesBefore order b c) : ComesBefore order a c := by
  rw [← compareIn_eq_lt] at hab hbc ⊢
  exact Std.TransCmp.lt_trans hab hbc

instance : Std.Irrefl (ComesBefore order) := ⟨fun _ h => h.asymm h⟩

instance : Std.Antisymm (ComesBefore order) := ⟨fun _ _ hab hba => absurd hba hab.asymm⟩

end Device

namespace Store

variable {s : Store} {user : String} {o : ListOptions} {order : SortOrder} {a b : Device}

/-- Of two records of a store one comes before the other. -/
theorem comesBefore_total (ha : a ∈ s.records) (hb : b ∈ s.records) (hne : a ≠ b) :
    a.ComesBefore order b ∨ b.ComesBefore order a := by
  rw [← Device.compareIn_eq_lt, ← Device.compareIn_eq_lt]
  cases hab : Device.compareIn order a b with
  | lt => exact .inl rfl
  | gt => exact .inr (Std.OrientedCmp.gt_iff_lt.mp hab)
  | eq =>
    have hba : Device.compareIn order b a = .eq := Std.OrientedCmp.eq_comm.mp hab
    exact absurd (eq_of_compareIn ha hb (by rw [hab]; rfl) (by rw [hba]; rfl)) hne

/-- The records that match are those that count. -/
theorem mem_matching {d : Device} :
    d ∈ s.matching user o order ↔ d ∈ s.records ∧ d.Counts user o := by
  rw [matching, (List.mergeSort_perm ..).mem_iff, List.mem_filter, Device.isListed_iff]

/-- The records that match stand in the order asked for. -/
theorem pairwise_matching : (s.matching user o order).Pairwise (Device.ComesBefore order) := by
  have hle : (s.matching user o order).Pairwise fun a b => (Device.compareIn order a b).isLE :=
    List.pairwise_mergeSort (fun _ _ _ => Std.TransCmp.isLE_trans) (isLE_total _) _
  have hnodup : (s.matching user o order).Nodup :=
    (List.mergeSort_perm ..).nodup_iff.mpr (s.sorted.nodup.filter _)
  refine (hle.and hnodup).imp_of_mem ?_
  rintro a b ha hb ⟨hab, hne⟩
  have htotal : a.ComesBefore order b ∨ b.ComesBefore order a :=
    comesBefore_total (mem_matching.mp ha).1 (mem_matching.mp hb).1 hne
  rcases htotal with hlt | hlt
  · exact hlt
  · rw [← Device.compareIn_eq_lt, ← Std.OrientedCmp.gt_iff_lt] at hlt
    rw [hlt] at hab
    cases hab

/-- The records that match are known from which they are and in which order. -/
theorem eq_matching {found : List Device}
    (hmem : ∀ d, d ∈ found ↔ d ∈ s.records ∧ d.Counts user o)
    (hsorted : found.Pairwise (Device.ComesBefore order)) : found = s.matching user o order :=
  hsorted.eq_of_mem_iff pairwise_matching fun d => (hmem d).trans mem_matching.symm

end Store

/-! ## Windows -/

/-- Options that make sense do so for every window. -/
theorem ListOptions.order_of_window {o : ListOptions} {order : SortOrder}
    (horder : o.order = .ok order) (limit offset : Nat) :
    ({ o with limit := limit, offset := offset } : ListOptions).order = .ok order := by
  obtain ⟨hlimit, hoffset⟩ := bounds_of_order horder
  have hwindow : ¬ (limit : Int) < 0 ∧ ¬ (offset : Int) < 0 := by omega
  rw [ListOptions.order, if_neg (by omega), if_neg (by omega)] at horder
  rw [ListOptions.order, if_neg hwindow.1, if_neg hwindow.2]
  exact horder

/-- A window that begins and ends somewhere. -/
theorem window_of_nat {α : Type} (offset limit : Nat) (items : List α) :
    window offset limit items = (items.drop offset).take limit := by
  have hlimit : ¬ (limit : Int) < 0 := by omega
  have hoffset : ¬ (offset : Int) < 0 := by omega
  simp [window, hlimit, hoffset]

/-- A listing shows a window of the records that match, and says how many they are. -/
theorem Store.list_window (s : Store) (user : String) {o : ListOptions} {order : SortOrder}
    (horder : o.order = .ok order) (limit offset : Nat) :
    s.list user { o with limit := limit, offset := offset } =
      .ok (((s.matching user o order).drop offset).take limit,
        (s.matching user o order).length) := by
  rw [list, ListOptions.order_of_window horder, ← window_of_nat]
  rfl

/-- A number of 64 bits that is not negative is the same without a sign. -/
theorem toInt_eq_toUInt64 {n : Int64} (hn : 0 ≤ n) : n.toInt = (n.toUInt64.toNat : Int) := by
  have hnonneg : 0 ≤ n.toBitVec.toInt := Int64.le_iff_toInt_le.mp hn
  have hbound := n.toBitVec.isLt
  change n.toBitVec.toInt = (n.toBitVec.toNat : Int)
  rw [BitVec.toInt_eq_toNat_cond] at hnonneg ⊢
  split at hnonneg <;> omega

/-- Windows that lie side by side hold what one window over all of them holds. -/
theorem flatMap_windows {α : Type} (items : List α) (size pages : Nat) :
    ((List.range pages).flatMap fun n => (items.drop (n * size)).take size) =
      items.take (pages * size) := by
  induction pages with
  | zero => simp
  | succ pages ih =>
    rw [List.range_succ, List.flatMap_append, ih, List.flatMap_singleton, ← List.take_add,
      Nat.succ_mul]

/-! ## Writes -/

/-- Two records with different local ids may be written in either order. -/
theorem Store.insert_comm (s : Store) {a b : Device} (hne : a.localId ≠ b.localId) :
    (s.insert a).insert b = (s.insert b).insert a := by
  apply ext_find?
  intro id
  simp only [find?_insert]
  split
  · rename_i hb
    rw [if_neg fun ha => hne (ha.trans hb.symm)]
  · rfl

/-- Records with different local ids may be written in any order. -/
theorem Store.insertAll_perm (s : Store) {first second : List Device} (hperm : first.Perm second)
    (hids : (first.map Device.localId).Nodup) : s.insertAll first = s.insertAll second := by
  refine hperm.foldl_eq' (fun a ha b hb t => ?_) s
  by_cases hid : a.localId = b.localId
  · rw [List.inj_on_of_nodup_map hids ha hb hid]
  · exact t.insert_comm hid

/-- A lamp of Alice's. -/
def alicesLampAt (localId : String) : Device := { localId, name := "lamp", userId := "alice" }

/-- A store with two lamps of Alice's, the second of which was written first. -/
def twoLamps : Store := (Store.empty.insert (alicesLampAt "d2")).insert (alicesLampAt "d1")

end WaitingRoom
