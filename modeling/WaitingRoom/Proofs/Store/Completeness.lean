import Mathlib.Algebra.Group.Nat.Defs
import WaitingRoom.Proofs.Store.Copying

/-!
# Copies nothing goes wrong with

Along a route on which every call succeeds a copy writes each record of the source once,
in order, and leaves the source as it is; it can be run again to no effect. Stores on
shelves that answer all calls have such routes between them, also from one to itself.
-/

namespace WaitingRoom

namespace CopyRoute

variable {σ : Type} {r : CopyRoute σ} {origin target : σ → Store} {ready : σ → Prop}

/-- A whole copy follows its itinerary; and if no call fails, it counts every record. -/
theorem Between.carried_copy (h : r.Between origin target) {batch : Int} (hbatch : 0 < batch)
    {s : CopyLog × σ} (hsize : (origin s.2).size < 2 ^ 63) :
    ∃ answer, (r.overheard.copy batch s).1 = some answer ∧
      Carried origin target (CopyCall.itinerary batch.toNat (origin s.2).records) s answer
        (r.overheard.copy batch s).2 ∧
      ∀ count, answer = .ok count → count = (origin s.2).size := by
  obtain ⟨size, rfl⟩ := Int.eq_ofNat_of_zero_le hbatch.le
  have hlast : ((origin s.2).records.length : Int) ≤ lastOffset := by
    rw [Store.size] at hsize
    rw [lastOffset]
    omega
  rw [copy, dif_pos hbatch]
  have hpages : 0 + (origin s.2).records.length / size = (origin s.2).records.length / size :=
    Nat.zero_add _
  have hcarried := h.carried_copyFrom hbatch hlast (s := r.overheard.note (.started size) s) hpages
    (congrArg Store.records (h.note_origin ..))
  rw [Nat.zero_mul] at hcarried
  obtain ⟨answer, hanswer, hcalls, hcount⟩ := hcarried
  refine ⟨answer, hanswer, ⟨?_, ?_⟩, hcount⟩
  · obtain ⟨made, hlog, hfollows, htarget⟩ := hcalls.calls
    exact ⟨made, hlog, hfollows, htarget.trans (congrArg (Store.insertAll · _) (h.note_target ..))⟩
  · exact hcalls.origin.trans (h.note_origin ..)

/-- A batch that is not positive is refused before anything is done. -/
theorem copy_of_nonpos (r : CopyRoute σ) {batch : Int} (hbatch : batch ≤ 0) (s : σ) :
    r.copy batch s =
      (some (.error (.invalidArgument "migration batch size must be positive")), s) := by
  rw [copy, dif_neg (Int.not_lt.mpr hbatch)]

/-- In a state that is ready every call that a copy can make succeeds, and leaves the state
ready. -/
structure Reliable (r : CopyRoute σ) (ready : σ → Prop) : Prop where
  fetch : ∀ {offset limit : Int} {s : σ}, ready s → 0 ≤ offset → 0 < limit →
    (∃ page, (r.fetch offset limit s).1 = .ok page) ∧ ready (r.fetch offset limit s).2
  write : ∀ (d : Device) {s : σ}, ready s → (r.write d s).1 = .ok () ∧ ready (r.write d s).2
  note : ∀ (n : CopyNote) {s : σ}, ready s → ready (r.note n s)

theorem Reliable.writePage (h : r.Reliable ready) (copied : Nat) (page : List Device) {s : σ}
    (hs : ready s) : (∃ count, (r.writePage copied page s).1 = .ok count) ∧
      ready (r.writePage copied page s).2 := by
  induction page generalizing copied s with
  | nil => exact ⟨⟨copied, rfl⟩, hs⟩
  | cons d rest ih =>
    rw [CopyRoute.writePage]
    have hwrite := h.write d hs
    cases hd : r.write d s with
    | mk written after =>
      rw [hd] at hwrite
      obtain ⟨rfl, hafter⟩ := hwrite
      exact ih (copied + 1) hafter

/-- A page that was fetched is written. -/
theorem Reliable.page (h : r.Reliable ready) {batch offset : Int} (hbatch : 0 < batch)
    (hoffset : 0 ≤ offset) {s after last : σ} (hs : ready s) {page : List Device}
    (hfetch : r.fetch offset batch s = (.ok page, after)) {copied : Nat} {n : CopyNote}
    {counted : Except Failure Nat}
    (hpage : r.writePage copied page (r.note n after) = (counted, last)) :
    (∃ count, counted = .ok count) ∧ ready last := by
  have hafter := (h.fetch hs hoffset hbatch).2
  rw [hfetch] at hafter
  have hwritten := h.writePage copied page (h.note n hafter)
  rwa [hpage] at hwritten

theorem Reliable.copyFrom (h : r.Reliable ready) {batch : Int} (hbatch : 0 < batch) {offset : Int}
    (hoffset : 0 ≤ offset) (copied : Nat) {s : σ} (hs : ready s) :
    (∀ f, (r.copyFrom batch hbatch offset copied s).1 ≠ some (.error f)) ∧
      ready (r.copyFrom batch hbatch offset copied s).2 := by
  fun_induction r.copyFrom batch hbatch offset copied s with
  | case1 offset copied s f after hfetch =>
    obtain ⟨page, hpage⟩ := (h.fetch hs hoffset hbatch).1
    rw [hfetch] at hpage
    cases hpage
  | case2 offset copied s page after hfetch f last hpage =>
    obtain ⟨count, hcount⟩ := (h.page hbatch hoffset hs hfetch hpage).1
    cases hcount
  | case3 offset copied s page after hfetch count last hpage hlast =>
    refine ⟨fun f hfailed => ?_, h.note _ (h.page hbatch hoffset hs hfetch hpage).2⟩
    cases hfailed
  | case4 offset copied s page after hfetch count last hpage hlast hend =>
    refine ⟨fun f hfailed => ?_, (h.page hbatch hoffset hs hfetch hpage).2⟩
    cases hfailed
  | case5 offset copied s page after hfetch count last hpage hlast hend ih =>
    exact ih (by omega) (h.page hbatch hoffset hs hfetch hpage).2

/-- Where every call succeeds, no copy fails. -/
theorem Reliable.copy (h : r.Reliable ready) {batch : Int} (hbatch : 0 < batch) {s : σ}
    (hs : ready s) :
    (∀ f, (r.copy batch s).1 ≠ some (.error f)) ∧ ready (r.copy batch s).2 := by
  rw [CopyRoute.copy, dif_pos hbatch]
  exact h.copyFrom hbatch le_rfl 0 (h.note _ hs)

/-- A copy along a route on which every call succeeds makes all calls of its itinerary. -/
theorem Between.copy_of_reliable (h : r.Between origin target) (hready : r.Reliable ready)
    {batch : Int} (hbatch : 0 < batch) {s : CopyLog × σ} (hs : ready s.2)
    (hsize : (origin s.2).size < 2 ^ 63) :
    ∃ after, r.overheard.copy batch s = (some (.ok (origin s.2).size),
        s.1 ++ CopyLog.served (CopyCall.itinerary batch.toNat (origin s.2).records), after) ∧
      r.copy batch s.2 = (some (.ok (origin s.2).size), after) ∧ ready after ∧
      origin after = origin s.2 ∧
      target after = (target s.2).insertAll (origin s.2).records := by
  obtain ⟨answer, hanswer, ⟨⟨made, hlog, hfollows, htarget⟩, horigin⟩, hcount⟩ :=
    h.carried_copy hbatch hsize
  have hcopy := overheard_copy r batch s
  have hsucceeds := hready.copy hbatch hs
  cases hrun : r.overheard.copy batch s with
  | mk answered after =>
    rw [hrun] at hanswer hlog htarget horigin hcopy
    obtain rfl : answered = some answer := hanswer
    rw [← hcopy] at hsucceeds
    cases answer with
    | error f => exact absurd rfl (hsucceeds.1 f)
    | ok count =>
      obtain rfl := hcount count rfl
      obtain rfl : made = CopyLog.served _ := hfollows
      rw [CopyLog.written_served, CopyCall.writes_itinerary (by omega)] at htarget
      exact ⟨after.2, by rw [← hlog], hcopy.symm, hsucceeds.2, horigin, htarget⟩

end CopyRoute

/-! ## Stores on shelves -/

/-- A call that is made is answered, or it fails without effect and was not to be served. -/
theorem StoreService.answer_cases {α : Type} (s : StoreService) (call : StoreCall)
    (served : Except Failure α × Store) :
    ∃ answer after, s.answer call served = (answer, after) ∧ after.forecast = s.forecast ∧
      ((orTimeout answer = served.1 ∧ after.store = served.2) ∨
        ((∃ f, orTimeout answer = .error f) ∧ after.store = s.store ∧ s.next call ≠ .served)) := by
  unfold answer
  cases hnext : s.next call with
  | served => exact ⟨_, _, rfl, rfl, .inl ⟨rfl, rfl⟩⟩
  | failed => exact ⟨_, _, rfl, rfl, .inr ⟨⟨_, rfl⟩, rfl, nofun⟩⟩
  | hanging => exact ⟨_, _, rfl, rfl, .inr ⟨⟨_, rfl⟩, rfl, nofun⟩⟩

namespace Shelves

theorem find_cons (key name : String) (service : StoreService) (rest : Shelves) :
    find ((key, service) :: rest) name = if name = key then service else find rest name := by
  unfold find
  rw [List.lookup_cons]
  by_cases hname : name = key
  · simp [hname]
  · rw [beq_false_of_ne hname, if_neg hname]

/-- What stands under a name after something was put under one. -/
theorem find_put (s : Shelves) (name other : String) (service : StoreService) :
    (s.put name service).find other = if other = name then service else s.find other := by
  induction s with
  | nil => exact find_cons ..
  | cons entry rest ih =>
    obtain ⟨key, old⟩ := entry
    rw [put]
    by_cases hkey : key = name
    · subst hkey
      rw [if_pos (beq_self_eq_true _), find_cons, find_cons]
      split <;> rfl
    · rw [if_neg (by simpa using hkey), find_cons, find_cons, ih]
      by_cases hother : other = key
      · rw [if_pos hother, if_pos hother, if_neg (hother ▸ hkey)]
      · rw [if_neg hother, if_neg hother]

/-- The store under a name. -/
def content (name : String) (s : Shelves) : Store := (s.find name).store

theorem content_put (s : Shelves) (name other : String) (service : StoreService) :
    content other (s.put name service) =
      if other = name then service.store else content other s := by
  unfold content
  rw [find_put]
  split <;> rfl

/-- A page that is fetched is a window of the source, or was not to be served. -/
theorem route_fetch (source target : String) (offset limit : Int) (s : Shelves) :
    ∃ page service, (route source target).fetch offset limit s = (page, s.put source service) ∧
      service.store = content source s ∧ service.forecast = (s.find source).forecast ∧
      (page = .ok ((content source s).exportPage offset limit) ∨
        (∃ f, page = .error f) ∧ (s.find source).next .fetch ≠ .served) := by
  obtain ⟨answer, after, hanswer, hforecast, ⟨hpage, hstore⟩ | ⟨hpage, hstore, hnext⟩⟩ :=
    (s.find source).answer_cases .fetch
      (.ok ((s.find source).store.exportPage offset limit), (s.find source).store)
  all_goals refine ⟨StoreService.orTimeout answer, after, ?_, hstore, hforecast, ?_⟩
  · simp only [route, StoreService.fetch, hanswer]
  · exact .inl hpage
  · simp only [route, StoreService.fetch, hanswer]
  · exact .inr ⟨hpage, hnext⟩

/-- A record that is written is put into the target, or its write was not to be served. -/
theorem route_write (source target : String) (d : Device) (s : Shelves) :
    ∃ written service, (route source target).write d s = (written, s.put target service) ∧
      service.forecast = (s.find target).forecast ∧
      ((written = .ok () ∧ service.store = (content target s).insert d) ∨
        (∃ f, written = .error f) ∧ service.store = content target s ∧
          (s.find target).next .write ≠ .served) := by
  obtain ⟨answer, after, hanswer, hforecast, hcases⟩ :=
    (s.find target).answer_cases .write (.ok (), (s.find target).store.insert d)
  refine ⟨StoreService.orTimeout answer, after, ?_, hforecast, hcases⟩
  simp only [route, StoreService.write, hanswer]

/-- Fetching a page changes no store. -/
theorem content_fetch (source target name : String) (offset limit : Int) (s : Shelves) :
    content name ((route source target).fetch offset limit s).2 = content name s := by
  obtain ⟨page, service, hfetch, hstore, -⟩ := route_fetch source target offset limit s
  rw [hfetch, content_put]
  split
  · rename_i hname
    rw [hstore, hname]
  · rfl

/-- The route between two names leads between the stores under them, also when the names are
the same. -/
theorem route_between (source target : String) :
    (route source target).Between (content source) (content target) where
  fetched {offset limit s after page} _ _ hok := by
    obtain ⟨answer, service, hfetch, -, -, hpage⟩ := route_fetch source target offset limit s
    obtain ⟨rfl, -⟩ := Prod.mk.inj (hfetch.symm.trans hok)
    rcases hpage with hpage | ⟨⟨f, hf⟩, -⟩
    · exact Except.ok.inj hpage
    · cases hf
  fetch_origin offset limit s := content_fetch ..
  fetch_target offset limit s := content_fetch ..
  written {d s after} hok := by
    obtain ⟨answer, service, hwrite, -, hwritten⟩ := route_write source target d s
    obtain ⟨rfl, rfl⟩ := Prod.mk.inj (hwrite.symm.trans hok)
    rcases hwritten with ⟨-, hstore⟩ | ⟨⟨f, hf⟩, -⟩
    · rw [content_put, if_pos rfl, hstore]
    · cases hf
  unwritten {d s after f} herror := by
    obtain ⟨answer, service, hwrite, -, hwritten⟩ := route_write source target d s
    obtain ⟨rfl, rfl⟩ := Prod.mk.inj (hwrite.symm.trans herror)
    rcases hwritten with ⟨hok, -⟩ | ⟨-, hstore, -⟩
    · cases hok
    · rw [content_put, if_pos rfl, hstore]
  write_origin {d s} hmem := by
    obtain ⟨answer, service, hwrite, -, hwritten⟩ := route_write source target d s
    rw [hwrite, content_put]
    split
    · rename_i hsame
      rw [hsame] at hmem ⊢
      rcases hwritten with ⟨-, hstore⟩ | ⟨-, hstore, -⟩
      · rw [hstore, Store.insert_of_mem hmem]
      · rw [hstore]
    · rfl
  note_origin _ _ := rfl
  note_target _ _ := rfl

/-- All pages of one store are to be served, and all records that are written to another. -/
def Serve (source target : String) (s : Shelves) : Prop :=
  (∀ n, (s.find source).forecast .fetch n = .served) ∧
    ∀ n, (s.find target).forecast .write n = .served

/-- A store that comes back with the same forecast changes nothing about what is served. -/
theorem Serve.put {source target name : String} {s : Shelves} (h : s.Serve source target)
    {service : StoreService} (hforecast : service.forecast = (s.find name).forecast) :
    (s.put name service).Serve source target := by
  have hsame (other : String) : ((s.put name service).find other).forecast =
      (s.find other).forecast := by
    rw [find_put]
    split
    · rename_i hname
      rw [hforecast, hname]
    · rfl
  unfold Serve
  rw [hsame, hsame]
  exact h

theorem route_reliable (source target : String) :
    (route source target).Reliable (Serve source target) where
  fetch {offset limit s} hs _ _ := by
    obtain ⟨answer, service, hfetch, -, hforecast, hpage⟩ :=
      route_fetch source target offset limit s
    rw [hfetch]
    refine ⟨?_, hs.put hforecast⟩
    rcases hpage with hpage | ⟨-, hnext⟩
    · exact ⟨_, hpage⟩
    · exact absurd (hs.1 _) hnext
  write d s hs := by
    obtain ⟨answer, service, hwrite, hforecast, hwritten⟩ := route_write source target d s
    rw [hwrite]
    refine ⟨?_, hs.put hforecast⟩
    rcases hwritten with ⟨hok, -⟩ | ⟨-, -, hnext⟩
    · exact hok
    · exact absurd (hs.2 _) hnext
  note _ _ hs := hs

end Shelves

/-! ## The copy -/

/-- Along a route on which every call succeeds, a copy of fewer records than there are offsets
makes the calls of its itinerary and no others, which write each record of the source once and
in order. It counts all of them, leaves the source as it is, and puts the records of the source
in the target, where only what has their local ids is replaced; run again, with whatever batch,
it counts the same and changes nothing. A batch that is not positive is refused before any call.
Between stores that serve, on shelves, there are such routes, also from one store to itself. -/
theorem copy_is_complete_and_exact :
    (∀ (σ : Type) (r : CopyRoute σ) (origin target : σ → Store) (ready : σ → Prop) (s : σ)
        (batch : Int), r.Between origin target → r.Reliable ready → ready s →
      (origin s).size < 2 ^ 63 → 0 < batch →
      ∃ calls after,
        r.overheard.copy batch ([], s) =
          (some (.ok (origin s).size), CopyLog.served calls, after) ∧
        r.copy batch s = (some (.ok (origin s).size), after) ∧
        calls = CopyCall.itinerary batch.toNat (origin s).records ∧
        CopyCall.writes calls = (origin s).records ∧
        (∀ offset limit : Int, .fetch offset limit ∈ calls →
          0 ≤ offset ∧ offset ≤ (origin s).size ∧ limit = batch) ∧
        origin after = origin s ∧
        (∀ id, (target after).find? id = ((origin s).find? id).or ((target s).find? id)) ∧
        ∀ again, 0 < again → ∃ last, r.copy again after = (some (.ok (origin s).size), last) ∧
          origin last = origin s ∧ target last = target after) ∧
    (∀ (σ : Type) (r : CopyRoute σ) (s : σ) (batch : Int), batch ≤ 0 →
      r.overheard.copy batch ([], s) =
        (some (.error (.invalidArgument "migration batch size must be positive")), [], s)) ∧
    ∀ (s : Shelves) (source target : String) (batch : Int), s.Serve source target →
      (s.content source).size < 2 ^ 63 → 0 < batch →
      ∃ after, s.copy source target batch = (some (.ok (s.content source).size), after) ∧
        after.content source = s.content source ∧
        ∀ id, (after.content target).find? id =
          ((s.content source).find? id).or ((s.content target).find? id) := by
  refine ⟨?_, fun σ r s batch hbatch => r.overheard.copy_of_nonpos hbatch _, ?_⟩
  · intro σ r origin target ready s batch hbetween hreliable hs hsize hbatch
    obtain ⟨after, hrun, hcopy, hafter, horigin, htarget⟩ :=
      hbetween.copy_of_reliable hreliable hbatch (s := ([], s)) hs hsize
    refine ⟨_, after, hrun, hcopy, rfl, CopyCall.writes_itinerary (by omega), ?_, horigin, ?_, ?_⟩
    · intro offset limit hmem
      obtain ⟨hpos, hwithin, hlimit⟩ := CopyCall.bounds_of_fetch_mem hmem
      exact ⟨hpos, hwithin, by omega⟩
    · intro id
      rw [htarget]
      exact Store.find?_insertAll _ (origin s).sorted id
    · intro again hagain
      obtain ⟨last, -, hcopied, -, hkept, hsame⟩ :=
        hbetween.copy_of_reliable hreliable hagain (s := ([], after)) hafter (horigin ▸ hsize)
      refine ⟨last, horigin ▸ hcopied, hkept.trans horigin, ?_⟩
      rw [hsame, htarget, horigin]
      exact Store.insertAll_insertAll_of_sublist _ (origin s).sorted (List.Sublist.refl _)
  · intro s source target batch hserve hsize hbatch
    obtain ⟨after, -, hcopy, -, horigin, htarget⟩ :=
      (Shelves.route_between source target).copy_of_reliable
        (Shelves.route_reliable source target) hbatch (s := ([], s)) hserve hsize
    refine ⟨after, hcopy, horigin, fun id => ?_⟩
    rw [htarget]
    exact Store.find?_insertAll _ (s.content source).sorted id

namespace Shelves

/-- Two stores with one local id in common. -/
def pair : Shelves :=
  let here := [Device.named "d1" "lamp", Device.named "d2" "fan", Device.named "d3" "lock"]
  let there := [Device.named "d2" "old fan", Device.named "d4" "bell"]
  [("here", { store := Store.empty.insertAll here }),
    ("there", { store := Store.empty.insertAll there })]

end Shelves

/-- Three records are copied two at a time: over one of the two that were there, and beside
the other one. -/
theorem pair_is_copied :
    (∃ calls after, (Shelves.route "here" "there").overheard.copy 2 ([], Shelves.pair) =
        (some (.ok 3), CopyLog.served calls, after) ∧
      calls = [.fetch 0 2, .write (Device.named "d1" "lamp"), .write (Device.named "d2" "fan"),
        .fetch 2 2, .write (Device.named "d3" "lock")] ∧
      (after.content "there").find? "d2" = some (Device.named "d2" "fan") ∧
      (after.content "there").find? "d4" = some (Device.named "d4" "bell")) ∧
    ∃ after, Shelves.pair.copy "there" "there" 1 = (some (.ok 2), after) ∧
      after.content "there" = Shelves.pair.content "there" := by
  constructor
  · obtain ⟨calls, after, hrun, -, hcalls, -, -, -, hfound, -⟩ :=
      copy_is_complete_and_exact.1 Shelves (Shelves.route "here" "there")
        (Shelves.content "here") (Shelves.content "there") (Shelves.Serve "here" "there")
        Shelves.pair 2 (Shelves.route_between _ _) (Shelves.route_reliable _ _)
        ⟨fun _ => rfl, fun _ => rfl⟩ (by decide) (by decide)
    refine ⟨calls, after, hrun, hcalls, ?_, ?_⟩
    · rw [hfound]
      rfl
    · rw [hfound]
      rfl
  · obtain ⟨after, hcopy, hsame, -⟩ := copy_is_complete_and_exact.2.2 Shelves.pair "there" "there"
      1 ⟨fun _ => rfl, fun _ => rfl⟩ (by decide) (by decide)
    exact ⟨after, hcopy, hsame⟩

end WaitingRoom
