import WaitingRoom.Proofs.Desk.Overlap
import WaitingRoom.Proofs.Desk.Readings

/-!
# Adoptions that overlap

A record is to be handed to the device manager once, and then to be gone. Where requests take
turns that is so only as far as their readings go: a request that has read the record hands it
over, or writes it back, whatever became of it since. This file proves that nothing else can
happen. Each adoption and each writing under the local id goes by a reading of its own; so
what happens to the record after it was deleted is begun by a request that had read it before.
-/

namespace WaitingRoom

/-- Whether the device manager takes over a device with a local id. -/
def Act.Adopts (act : Act) (id : String) : Prop :=
  ∃ token d, act.call = .adopt token d ∧ d.localId = id ∧
    (act.world.adoptCall token d).1 = some (.ok ())

/-- Whether a record is written under a local id. -/
def Act.Writes (act : Act) (id : String) : Prop := ∃ d, act.call = .write d ∧ d.localId = id

/-- Whether the record under a local id is deleted, or there is none and the store says so. -/
def Act.Deletes (act : Act) (id : String) : Prop :=
  act.call = .remove id ∧ (act.world.removeCall id).1 = some (.ok ())

/-- Nothing is found where a record was deleted. -/
theorem Act.Deletes.find?_after {act : Act} {id : String} (h : act.Deletes id) :
    (act.world.after act.call).store.find? id = none := by
  obtain ⟨hcall, hserved⟩ := h
  have hstore : (act.world.removeCall id).2.store = act.world.store.erase id := by
    change (act.world.service.remove id).2.store = act.world.service.store.erase id
    change (act.world.service.remove id).1 = _ at hserved
    unfold StoreService.remove StoreService.answer at hserved ⊢
    cases hnext : act.world.service.next .remove with
    | served => simp only
    | failed => simp [hnext, diskFull] at hserved
    | hanging => simp [hnext] at hserved
  rw [hcall, World.after, hstore, Store.find?_erase, if_pos rfl]

namespace Bustle

variable {acts : List Act} {now : Store} {id : String}

/-- Whether the act with a number is an adoption of the record under a local id. -/
def AdoptedAt (acts : List Act) (id : String) (n : Nat) : Prop :=
  ∃ act, acts[n]? = some act ∧ act.Adopts id

/-- Whether the act with a number is a writing under a local id. -/
def WrittenAt (acts : List Act) (id : String) (n : Nat) : Prop :=
  ∃ act, acts[n]? = some act ∧ act.Writes id

/-- Whether the act with a number is a deletion under a local id. -/
def DeletedAt (acts : List Act) (id : String) (n : Nat) : Prop :=
  ∃ act, acts[n]? = some act ∧ act.Deletes id

/-- Whether the `n`th act goes by the reading that the `k`th is: a request reads a record and
then hands it over or writes it, hidden or not, and does nothing in between that ends what the
reading is good for. -/
def RestsOn (acts : List Act) (id : String) (k n : Nat) : Prop :=
  k < n ∧ ∃ (look act : Act) (d : Device), acts[k]? = some look ∧ acts[n]? = some act ∧
    look.doer = act.doer ∧ look.call = .read id ∧ look.world.store.find? id = some d ∧
    ((∃ token, act.call = .adopt token d) ∨ ∃ hidden, act.call = .write { d with hidden }) ∧
    ∀ (l : Nat) (other : Act), k < l → l < n → acts[l]? = some other → other.doer = act.doer →
      other.call.endsReading = false

/-- Whether a reading outlives a deletion: a request that has read the record before hands it
over or writes it back afterwards. -/
def IsOutlived (acts : List Act) (id : String) (r : Nat) : Prop :=
  ∃ k j, k < r ∧ r < j ∧ RestsOn acts id k j

/-- Whether each adoption of a record and each writing under its local id goes by a reading. -/
def GoesByReadings (acts : List Act) (id : String) : Prop :=
  ∀ n, AdoptedAt acts id n ∨ WrittenAt acts id n → ∃ k, RestsOn acts id k n

/-! ## Readings of one's own -/

/-- What a request that has read a record hands over or writes goes by that reading. -/
theorem HasRead.restsOn {position n : Nat} {token : Token} {op : Operation} {d : Device}
    {act : Act} (h : HasRead (acts.take n) position token op d) (hid : d.localId = id)
    (hact : acts[n]? = some act) (hdoer : act.doer = .request position token op)
    (hcall : (∃ token, act.call = .adopt token d) ∨
      ∃ hidden, act.call = .write { d with hidden }) :
    ∃ k, RestsOn acts id k n := by
  obtain ⟨k, look, hlook, hlookdoer, hread, hfind, hsince⟩ := h
  have hk : k < n ∧ acts[k]? = some look := of_getElem?_take hlook
  subst hid
  refine ⟨k, hk.1, look, act, d, hk.2, hact, hlookdoer.trans hdoer.symm, hread, hfind, hcall, ?_⟩
  intro l other hkl hln hother hby
  refine hsince l other hkl ?_ (hby.trans hdoer)
  rw [List.getElem?_take, if_pos hln]
  exact hother

/-- Where nobody creates a record under a local id, all that is done with it goes by readings. -/
theorem goesByReadings_run {asked : List (Token × Operation)}
    (hnew : ∀ asking ∈ asked, id ∉ asking.2.creates) (w : World) (turns : List Turn) :
    GoesByReadings ((opened w asked).run turns).acts id := by
  have hheld := goesByReading_isKept.holds (goesByReading_fresh hnew) w turns
  have horderly := orderly_run w asked turns
  -- a removal does neither
  have hrequest {n : Nat} {act : Act} (hact : ((opened w asked).run turns).acts[n]? = some act)
      (hcall : ∀ asked, act.call ≠ .remove asked) :
      ∃ position token op, act.doer = .request position token op := by
    cases hdoer : act.doer with
    | removal r => exact absurd ((horderly.founded n act hact).removal r hdoer).1 (hcall _)
    | request position token op => exact ⟨position, token, op, rfl⟩
  rintro n (⟨act, hact, token', d, hcall, hid, -⟩ | ⟨act, hact, e, hcall, hid⟩)
  · obtain ⟨position, token, op, hdoer⟩ := hrequest hact (by simp [hcall])
    obtain ⟨p, ⟨seen, hgoes, hread⟩, hnext⟩ := hheld.acts n act hact position token op hdoer
    rw [hcall] at hnext
    exact (hread d (hgoes.of_adopt hnext)).restsOn hid hact hdoer (.inl ⟨token', hcall⟩)
  · obtain ⟨position, token, op, hdoer⟩ := hrequest hact (by simp [hcall])
    obtain ⟨p, ⟨seen, hgoes, hread⟩, hnext⟩ := hheld.acts n act hact position token op hdoer
    rw [hcall] at hnext
    obtain ⟨d, hidden, hseen, rfl⟩ := hgoes.of_write hnext hid
    exact (hread d hseen).restsOn hid hact hdoer (.inr ⟨hidden, hcall⟩)

/-- No reading serves for an adoption and for anything after it. -/
theorem RestsOn.not_lt_of_adopted {k m n : Nat} (hm : RestsOn acts id k m)
    (hn : RestsOn acts id k n) (hadopted : AdoptedAt acts id m) : ¬ m < n := by
  intro hlt
  obtain ⟨adoption, hadoption, _, _, hcall, -⟩ := hadopted
  obtain ⟨hk, look, act, -, hlook, hact, hdoer, -⟩ := hm
  obtain ⟨-, look', act', -, hlook', -, hdoer', -, -, -, hsince⟩ := hn
  cases hadoption.symm.trans hact
  cases hlook.symm.trans hlook'
  have hends := hsince m _ hk hlt hact (hdoer.symm.trans hdoer')
  rw [hcall] at hends
  cases hends

/-- A reading from before the end of a deletion is from before the deletion. -/
theorem RestsOn.lt_of_deleted {k j r : Nat} (h : RestsOn acts id k j) (hk : k < r + 1)
    (hdeleted : DeletedAt acts id r) : k < r := by
  rcases Nat.lt_or_eq_of_le (Nat.le_of_lt_succ hk) with hlt | rfl
  · exact hlt
  · obtain ⟨-, look, -, -, hlook, -, -, hread, -⟩ := h
    obtain ⟨gone, hgone, hremove, -⟩ := hdeleted
    cases hlook.symm.trans hgone
    rw [hremove] at hread
    cases hread

/-- What was read was there. -/
theorem RestsOn.find?_ne_none {k n : Nat} (h : RestsOn acts id k n) :
    (storeAt acts now k).find? id ≠ none := by
  obtain ⟨-, look, -, d, hlook, -, -, -, hfind, -⟩ := h
  rw [storeAt_of_some hlook, hfind]
  nofun

/-- Nothing is found after a deletion. -/
theorem Linked.find?_of_deleted (h : Linked acts now) {r : Nat} (hdeleted : DeletedAt acts id r) :
    (storeAt acts now (r + 1)).find? id = none := by
  obtain ⟨gone, hgone, hdeletes⟩ := hdeleted
  rw [h r gone hgone]
  exact hdeletes.find?_after

/-! ## After a deletion -/

section Deletion

variable (hgoes : GoesByReadings acts id) (hlinked : Linked acts now)

include hgoes hlinked

/-- What is found where nothing was found before was written back by a request that had read it
before. -/
theorem exists_written_back {m n : Nat} (hgone : (storeAt acts now m).find? id = none)
    (hle : m ≤ n) (hback : (storeAt acts now n).find? id ≠ none) :
    ∃ k j, k < m ∧ m ≤ j ∧ j < n ∧ WrittenAt acts id j ∧ RestsOn acts id k j := by
  induction n using Nat.strongRecOn with
  | ind n ih =>
    obtain ⟨e, he⟩ := Option.ne_none_iff_exists'.mp hback
    have hmissing : (storeAt acts now m).find? id ≠ some e := by simp [hgone]
    obtain ⟨j, act, hmj, hjn, hact, hwrite, hid⟩ := hlinked.exists_write hmissing hle he
    have hwritten : WrittenAt acts id j := ⟨act, hact, e, hwrite, hid⟩
    obtain ⟨k, hrests⟩ := hgoes j (.inr hwritten)
    by_cases hk : k < m
    · exact ⟨k, j, hk, hmj, hjn, hwritten, hrests⟩
    · -- the writing request has read what had come back already
      obtain ⟨k', j', hk', hmj', hjk', hrest⟩ :=
        ih k (Nat.lt_trans hrests.1 hjn) (Nat.not_lt.mp hk) hrests.find?_ne_none
      exact ⟨k', j', hk', hmj', Nat.lt_trans hjk' (Nat.lt_trans hrests.1 hjn), hrest⟩

/-- A record comes back after a deletion only through a request that had read it before. -/
theorem exists_written_back_of_deleted {r n : Nat} (hdeleted : DeletedAt acts id r) (hlt : r < n)
    (hback : (storeAt acts now n).find? id ≠ none) :
    ∃ k j, k < r ∧ r < j ∧ j < n ∧ WrittenAt acts id j ∧ RestsOn acts id k j := by
  obtain ⟨k, j, hk, hj, hjn, hwritten, hrests⟩ :=
    exists_written_back hgoes hlinked (hlinked.find?_of_deleted hdeleted) hlt hback
  exact ⟨k, j, hrests.lt_of_deleted hk hdeleted, hj, hjn, hwritten, hrests⟩

/-- A record is adopted after a deletion only if a request that had read it before adopts it or
has written it back. -/
theorem exists_restsOn_of_deleted {r n : Nat} (hdeleted : DeletedAt acts id r) (hlt : r < n)
    (hadopted : AdoptedAt acts id n) :
    ∃ k j, k < r ∧ r < j ∧ j ≤ n ∧ RestsOn acts id k j := by
  obtain ⟨k, hrests⟩ := hgoes n (.inl hadopted)
  by_cases hk : k < r + 1
  · exact ⟨k, n, hrests.lt_of_deleted hk hdeleted, hlt, Nat.le_refl n, hrests⟩
  · obtain ⟨k', j, hk', hj, hjk, -, hstale⟩ := exists_written_back_of_deleted hgoes hlinked
      hdeleted (Nat.lt_of_succ_le (Nat.not_lt.mp hk)) hrests.find?_ne_none
    exact ⟨k', j, hk', hj, Nat.le_of_lt (Nat.lt_trans hjk hrests.1), hstale⟩

end Deletion

end Bustle

open Bustle in
/-- **Adoptions.** Many requests are under way, in whatever turns, none of which is to create a
record under a local id. Then each adoption of the record and each writing of it goes by a
reading of the same request's own, no two adoptions by the same one. What is found after the
record was deleted was written back, and what is adopted after that was handed over or written
back, by a request that had read it before. So if no reading outlives a deletion, and no second
adoption comes without a deletion after the first, the record is adopted at most once, and once
it is deleted it does not come back. -/
theorem adoptions_go_by_readings (id : String) (w : World) (asked : List (Token × Operation))
    (turns : List Turn) (hnew : ∀ asking ∈ asked, id ∉ asking.2.creates) :
    let s := (opened w asked).run turns
    (∀ n, AdoptedAt s.acts id n ∨ WrittenAt s.acts id n → ∃ k, RestsOn s.acts id k n) ∧
    (∀ k m n, AdoptedAt s.acts id m → AdoptedAt s.acts id n → RestsOn s.acts id k m →
      RestsOn s.acts id k n → m = n) ∧
    (∀ r n, DeletedAt s.acts id r → r < n →
      ((storeAt s.acts s.world.store n).find? id ≠ none →
        ∃ k j, k < r ∧ r < j ∧ j < n ∧ WrittenAt s.acts id j ∧ RestsOn s.acts id k j) ∧
      (AdoptedAt s.acts id n → ∃ k j, k < r ∧ r < j ∧ j ≤ n ∧ RestsOn s.acts id k j)) ∧
    ((∀ r, DeletedAt s.acts id r → ¬ IsOutlived s.acts id r) →
      (∀ m n, m < n → AdoptedAt s.acts id m → AdoptedAt s.acts id n →
        ∃ r, m < r ∧ r < n ∧ DeletedAt s.acts id r) →
      (∀ m n, AdoptedAt s.acts id m → AdoptedAt s.acts id n → m = n) ∧
      ∀ r n, DeletedAt s.acts id r → r < n →
        (storeAt s.acts s.world.store n).find? id = none) := by
  intro s
  have hgoes : GoesByReadings s.acts id := goesByReadings_run hnew w turns
  have hlinked : Linked s.acts s.world.store := linked_run w asked turns
  refine ⟨hgoes, ?_, fun r n hdeleted hlt =>
    ⟨exists_written_back_of_deleted hgoes hlinked hdeleted hlt,
      exists_restsOn_of_deleted hgoes hlinked hdeleted hlt⟩, ?_⟩
  · intro k m n hfirst hsecond hm hn
    exact Nat.le_antisymm (Nat.not_lt.mp (hn.not_lt_of_adopted hm hsecond))
      (Nat.not_lt.mp (hm.not_lt_of_adopted hn hfirst))
  · intro hfresh hbetween
    have honce {m n : Nat} (hfirst : AdoptedAt s.acts id m) (hsecond : AdoptedAt s.acts id n) :
        ¬ m < n := by
      intro hlt
      obtain ⟨r, -, hrn, hdeleted⟩ := hbetween m n hlt hfirst hsecond
      obtain ⟨k, j, hk, hj, -, hrests⟩ :=
        exists_restsOn_of_deleted hgoes hlinked hdeleted hrn hsecond
      exact hfresh r hdeleted ⟨k, j, hk, hj, hrests⟩
    refine ⟨fun m n hfirst hsecond => ?_, fun r n hdeleted hlt => ?_⟩
    · exact Nat.le_antisymm (Nat.not_lt.mp (honce hsecond hfirst))
        (Nat.not_lt.mp (honce hfirst hsecond))
    · cases hfound : (storeAt s.acts s.world.store n).find? id with
      | none => rfl
      | some d =>
        obtain ⟨k, j, hk, hj, -, -, hrests⟩ :=
          exists_written_back_of_deleted hgoes hlinked hdeleted hlt (by simp [hfound])
        exact absurd ⟨k, j, hk, hj, hrests⟩ (hfresh r hdeleted)

/-! ## Overlaps that adopt a record twice or bring it back -/

namespace Bustle

/-- A user's lamp, and a desk that has it. -/
def alicesLamp : Device := { lamp with userId := "alice" }

def stocked : World := { service := { store := Store.empty.insert alicesLamp } }

/-- Two requests to use the lamp, of which the second is served once the first is done. -/
def usedInOrder : Bustle :=
  (opened stocked [(visitor "alice", .use "d1"), (visitor "alice", .use "d1")]).run
    (calls 0 5 ++ calls 1 1)

/-- Both requests read the lamp before either goes on. -/
def usedAtOnce : Bustle :=
  (opened stocked [(visitor "alice", .use "d1"), (visitor "alice", .use "d1")]).run
    (calls 0 1 ++ calls 1 1 ++ calls 0 4 ++ calls 1 4)

/-- The lamp is read to be hidden; meanwhile it is used; then it is written, hidden. -/
def hiddenAfterUse : Bustle :=
  (opened stocked [(visitor "alice", .hide "d1"), (visitor "alice", .use "d1")]).run
    (calls 0 1 ++ calls 1 5 ++ calls 0 2)

/-- The lamp is used once more after it could not be deleted. -/
def usedAgain : Bustle :=
  (opened { stocked with service := stocked.service.turn .remove 0 .failed }
    [(visitor "alice", .use "d1"), (visitor "alice", .use "d1")]).run (calls 0 4 ++ calls 1 4)

/-- What nobody does after an act with a number goes by no reading from before it. -/
theorem not_isOutlived {acts : List Act} {id : String} {r : Nat}
    (h : ∀ act ∈ acts.drop (r + 1), (∀ token d, act.call ≠ .adopt token d) ∧
      ∀ d, act.call ≠ .write d) : ¬ IsOutlived acts id r := by
  rintro ⟨k, j, -, hj, -, look, act, d, -, hact, -, -, -, hcall, -⟩
  have hmem : act ∈ acts.drop (r + 1) := by
    apply List.mem_of_getElem? (i := j - (r + 1))
    rw [List.getElem?_drop, Nat.add_sub_cancel' hj]
    exact hact
  rcases hcall with ⟨token, hadopt⟩ | ⟨hidden, hwrite⟩
  · exact (h act hmem).1 token d hadopt
  · exact (h act hmem).2 _ hwrite

/-- The calls that are made where the lamp is used in order. -/
theorem calls_usedInOrder : usedInOrder.acts.map (fun act => act.call) =
    [.read "d1", .adopt (visitor "alice") alicesLamp, .removeLater "d1", .remove "d1",
      .notify "alice" ⟨.use, "d1"⟩, .read "d1"] := rfl

theorem call_usedInOrder {n : Nat} {act : Act} (hact : usedInOrder.acts[n]? = some act) :
    [Call.read "d1", .adopt (visitor "alice") alicesLamp, .removeLater "d1", .remove "d1",
      .notify "alice" ⟨.use, "d1"⟩, .read "d1"][n]? = some act.call := by
  rw [← calls_usedInOrder, List.getElem?_map, hact]
  rfl

theorem adoptedAt_usedInOrder {n : Nat} (h : AdoptedAt usedInOrder.acts "d1" n) : n = 1 := by
  obtain ⟨act, hact, token, d, hcall, -⟩ := h
  have hcalls := call_usedInOrder hact
  rw [hcall] at hcalls
  rcases n with _ | _ | _ | _ | _ | _ | n <;> simp at hcalls ⊢

theorem deletedAt_usedInOrder {n : Nat} (h : DeletedAt usedInOrder.acts "d1" n) : n = 3 := by
  obtain ⟨act, hact, hcall, -⟩ := h
  have hcalls := call_usedInOrder hact
  rw [hcall] at hcalls
  rcases n with _ | _ | _ | _ | _ | _ | n <;> simp at hcalls ⊢

end Bustle

open Bustle in
/-- The lamp that was hidden after it had been used came back by a reading from before its
deletion; where the requests are served in order, it is adopted once and does not come back. -/
theorem lamp_comes_back_by_an_old_reading :
    (∃ k j, k < 4 ∧ 4 < j ∧ j < 8 ∧ WrittenAt hiddenAfterUse.acts "d1" j ∧
      RestsOn hiddenAfterUse.acts "d1" k j) ∧
    (∀ m n, AdoptedAt usedInOrder.acts "d1" m → AdoptedAt usedInOrder.acts "d1" n → m = n) ∧
    ∀ r n, DeletedAt usedInOrder.acts "d1" r → r < n →
      (storeAt usedInOrder.acts usedInOrder.world.store n).find? "d1" = none := by
  obtain ⟨-, -, hback, -⟩ := adoptions_go_by_readings "d1" stocked
    [(visitor "alice", .hide "d1"), (visitor "alice", .use "d1")]
    (calls 0 1 ++ calls 1 5 ++ calls 0 2) (by decide)
  obtain ⟨-, -, -, honce⟩ := adoptions_go_by_readings "d1" stocked
    [(visitor "alice", .use "d1"), (visitor "alice", .use "d1")]
    (calls 0 5 ++ calls 1 1) (by decide)
  refine ⟨(hback 4 8 ⟨_, rfl, rfl, rfl⟩ (by decide)).1 (by decide), honce ?_ ?_⟩
  · intro r hdeleted
    obtain rfl := deletedAt_usedInOrder hdeleted
    apply not_isOutlived
    intro act hact
    obtain ⟨n, hn⟩ := List.getElem?_of_mem hact
    rw [List.getElem?_drop] at hn
    have hcalls := call_usedInOrder hn
    rcases n with _ | _ | n
    · simp [← Option.some.inj hcalls]
    · simp [← Option.some.inj hcalls]
    · rw [List.getElem?_eq_none (by simp; omega)] at hcalls
      cases hcalls
  · intro m n hlt hfirst hsecond
    rw [adoptedAt_usedInOrder hfirst, adoptedAt_usedInOrder hsecond] at hlt
    exact absurd hlt (Nat.lt_irrefl 1)

open Bustle in
/-- Two requests to use a record adopt it twice if both read it first, and also one after the
other if it could not be deleted in between; and a record that is written back, hidden, comes
back after it was adopted and deleted. -/
theorem record_is_adopted_twice_and_comes_back :
    stocked.store.find? "d1" = some alicesLamp ∧
    (AdoptedAt usedAtOnce.acts "d1" 2 ∧ AdoptedAt usedAtOnce.acts "d1" 6 ∧
      usedAtOnce.succeeded = [true, true]) ∧
    (AdoptedAt usedAgain.acts "d1" 1 ∧ AdoptedAt usedAgain.acts "d1" 5) ∧
    AdoptedAt hiddenAfterUse.acts "d1" 2 ∧ DeletedAt hiddenAfterUse.acts "d1" 4 ∧
      hiddenAfterUse.world.store.find? "d1" = some { alicesLamp with hidden := true } := by
  refine ⟨rfl, ⟨?_, ?_, rfl⟩, ⟨?_, ?_⟩, ?_, ⟨_, rfl, rfl, rfl⟩, rfl⟩
  all_goals exact ⟨_, rfl, visitor "alice", alicesLamp, rfl, rfl, rfl⟩

end WaitingRoom
