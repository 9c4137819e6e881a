import WaitingRoom.Proofs.Store.Completeness

/-!
# Copies that break off

The first call that fails ends a copy. What it has written by then is a beginning of the
records of the source, so any number of such beginnings, of whatever lengths, lie below
what a later copy writes that nothing goes wrong with.
-/

namespace WaitingRoom

/-- A store holds what another one held, with records written over it. -/
def Store.Overlays (s : Store) (records : List Device) (under : Store) : Prop :=
  ∀ id, s.find? id = (records.find? fun d => d.localId == id).or (under.find? id)

theorem Store.overlays_insertAll (s : Store) {records : List Device}
    (hsorted : records.Pairwise Device.precedes) : (s.insertAll records).Overlays records s :=
  find?_insertAll s hsorted

theorem Store.overlays_insertAll_take (s source : Store) (k : Nat) :
    (s.insertAll (source.records.take k)).Overlays (source.records.take k) s :=
  overlays_insertAll s (source.sorted.sublist (List.take_sublist ..))

/-- No call failed. -/
def CopyLog.Unbroken (log : CopyLog) : Prop := ∀ call ∈ log, call.2 = none

/-- Whatever of an itinerary was called, the records that were written are a beginning. -/
theorem CopyLog.Follows.written_eq_take {log : CopyLog} {batch : Nat} (hbatch : 0 < batch)
    {records : List Device} {failure : Option Failure}
    (h : log.Follows (CopyCall.itinerary batch records) failure) :
    ∃ k, log.written = records.take k := by
  cases failure with
  | none =>
    obtain rfl : log = served _ := h
    refine ⟨records.length, ?_⟩
    rw [written_served, CopyCall.writes_itinerary hbatch, List.take_length]
  | some f =>
    obtain ⟨before, call, rest, hplan, rfl⟩ := h
    rw [written_append, written_failed, List.append_nil, written_served]
    cases call with
    | fetch offset limit =>
      obtain ⟨page, -, -, -, hbefore⟩ := CopyCall.writes_before_fetch hplan
      exact ⟨_, hbefore⟩
    | write d =>
      obtain ⟨k, -, hbefore⟩ := CopyCall.writes_before_write hbatch hplan
      exact ⟨k, hbefore⟩

namespace CopyRoute

variable {σ : Type} {r : CopyRoute σ} {origin target : σ → Store}

/-- What a state can have come to by attempts to copy, however each of them ended, and by
whatever happened between them that left both stores as they were. -/
inductive Attempted (r : CopyRoute σ) (origin target : σ → Store) (s : σ) : σ → Prop
  | start : Attempted r origin target s s
  | copy {t : σ} (batch : Int) (h : Attempted r origin target s t) :
      Attempted r origin target s (r.copy batch t).2
  | mend {t u : σ} (h : Attempted r origin target s t) (horigin : origin u = origin t)
      (htarget : target u = target t) : Attempted r origin target s u

/-- A copy leaves the source as it is, and a beginning of it over what the target held. -/
theorem Between.copy_takes (h : r.Between origin target) {s : σ}
    (hsize : (origin s).size < 2 ^ 63) (batch : Int) :
    origin (r.copy batch s).2 = origin s ∧
      ∃ k, target (r.copy batch s).2 = (target s).insertAll ((origin s).records.take k) := by
  rcases Int.lt_or_le 0 batch with hbatch | hbatch
  · obtain ⟨answer, -, ⟨⟨made, -, hfollows, htarget⟩, horigin⟩, -⟩ :=
      h.carried_copy hbatch (s := ([], s)) hsize
    have hcopy : (r.overheard.copy batch ([], s)).2.2 = (r.copy batch s).2 :=
      congrArg Prod.snd (overheard_copy r batch ([], s))
    rw [hcopy] at htarget horigin
    obtain ⟨k, hwritten⟩ := hfollows.written_eq_take (by omega)
    exact ⟨horigin, k, hwritten ▸ htarget⟩
  · rw [r.copy_of_nonpos hbatch s]
    exact ⟨rfl, 0, rfl⟩

/-- Attempts leave the source as it is, and the longest beginning that one of them wrote over
what the target held. -/
theorem Between.attempted_takes (h : r.Between origin target) {s t : σ}
    (hsize : (origin s).size < 2 ^ 63) (ht : r.Attempted origin target s t) :
    origin t = origin s ∧
      ∃ k, target t = (target s).insertAll ((origin s).records.take k) := by
  induction ht with
  | start => exact ⟨rfl, 0, rfl⟩
  | copy batch _ ih =>
    obtain ⟨horigin, first, htarget⟩ := ih
    obtain ⟨hkept, second, hcopied⟩ := h.copy_takes (horigin ▸ hsize) batch
    refine ⟨hkept.trans horigin, max first second, ?_⟩
    rw [hcopied, htarget, horigin]
    exact Store.insertAll_take_insertAll_take _ (origin s).sorted first second
  | mend _ horigin htarget ih =>
    obtain ⟨hbefore, k, hk⟩ := ih
    exact ⟨horigin.trans hbefore, k, htarget.trans hk⟩

/-- A copy has broken off at a call: the calls before it were served as planned and nothing
was called after it, the copy failed as the call did, the source is as it was, and a number of
its first records lie over what the target held. -/
structure BreaksOff (r : CopyRoute σ) (origin target : σ → Store) (batch : Int) (s : σ)
    (call : CopyCall) (f : Failure) (done : Nat) : Prop where
  calls : ∃ before rest,
    CopyCall.itinerary batch.toNat (origin s).records = before ++ call :: rest ∧
    (r.overheard.copy batch ([], s)).2.1 = CopyLog.served before ++ [(call, some f)]
  answer : (r.copy batch s).1 = some (.error f)
  source : origin (r.copy batch s).2 = origin s
  content : (target (r.copy batch s).2).Overlays ((origin s).records.take done) (target s)

/-- A copy has come to its end: it has counted every record of the source, which is as it was,
and all of them lie over what there was. -/
structure Completes (r : CopyRoute σ) (origin target : σ → Store) (batch : Int) (s : σ)
    (under : Store) : Prop where
  calls : (r.overheard.copy batch ([], s)).2.1 =
    CopyLog.served (CopyCall.itinerary batch.toNat (origin s).records)
  answer : (r.copy batch s).1 = some (.ok (origin s).size)
  source : origin (r.copy batch s).2 = origin s
  content : (target (r.copy batch s).2).Overlays (origin s).records under

/-- The calls of a copy along its itinerary, from a log without calls. -/
theorem Between.copy_follows (h : r.Between origin target) {s : σ}
    (hsize : (origin s).size < 2 ^ 63) {batch : Int} (hbatch : 0 < batch) :
    ∃ answer, (r.copy batch s).1 = some answer ∧
      (r.overheard.copy batch ([], s)).2.1.Follows
        (CopyCall.itinerary batch.toNat (origin s).records) (failure? answer) ∧
      target (r.copy batch s).2 =
        (target s).insertAll (r.overheard.copy batch ([], s)).2.1.written ∧
      origin (r.copy batch s).2 = origin s ∧
      ∀ count, answer = .ok count → count = (origin s).size := by
  obtain ⟨answer, hanswer, ⟨⟨made, hlog, hfollows, htarget⟩, horigin⟩, hcount⟩ :=
    h.carried_copy hbatch (s := ([], s)) hsize
  have hcopy := overheard_copy r batch ([], s)
  rw [List.nil_append] at hlog
  rw [← hcopy, hlog]
  exact ⟨answer, hanswer, hfollows, htarget, horigin, hcount⟩

/-- A copy of which a call failed has broken off at it, with what was written before. -/
theorem Between.breaksOff (h : r.Between origin target) {s : σ}
    (hsize : (origin s).size < 2 ^ 63) {batch : Int} (hbatch : 0 < batch) {call : CopyCall}
    {f : Failure} (hcall : (call, some f) ∈ (r.overheard.copy batch ([], s)).2.1) :
    ∃ done, r.BreaksOff origin target batch s call f done ∧
      (∀ offset limit, call = .fetch offset limit →
        ∃ pages : Nat, offset = pages * batch ∧ offset ≤ (origin s).size ∧ done = offset.toNat) ∧
      ∀ d, call = .write d → (origin s).records[done]? = some d := by
  obtain ⟨answer, hanswer, hfollows, htarget, horigin, -⟩ := h.copy_follows hsize hbatch
  obtain ⟨hfailure, before, rest, hplan, hlog⟩ := hfollows.eq_of_mem hcall
  obtain rfl : answer = .error f := by
    cases answer with
    | ok count => cases hfailure
    | error g => cases hfailure; rfl
  rw [hlog, CopyLog.written_append, CopyLog.written_failed, List.append_nil,
    CopyLog.written_served] at htarget
  have hbreaks {done : Nat} (hbefore : CopyCall.writes before = (origin s).records.take done) :
      r.BreaksOff origin target batch s call f done := by
    refine ⟨⟨before, rest, hplan, hlog⟩, hanswer, horigin, ?_⟩
    rw [htarget, hbefore]
    exact Store.overlays_insertAll_take _ _ done
  cases call with
  | fetch offset limit =>
    obtain ⟨pages, rfl, rfl, hwithin, hbefore⟩ := CopyCall.writes_before_fetch hplan
    refine ⟨_, hbreaks hbefore, fun offset limit hcall => ?_, fun d hcall => ?_⟩
    · cases hcall
      refine ⟨pages, ?_, Int.ofNat_le.mpr hwithin, rfl⟩
      rw [Int.natCast_mul, Int.toNat_of_nonneg hbatch.le]
    · cases hcall
  | write d =>
    obtain ⟨k, hk, hbefore⟩ := CopyCall.writes_before_write (by omega) hplan
    refine ⟨k, hbreaks hbefore, fun offset limit hcall => ?_, fun d' hcall => ?_⟩
    · cases hcall
    · cases hcall
      exact hk

/-- A copy of which no call failed has come to its end. -/
theorem Between.completes (h : r.Between origin target) {s : σ}
    (hsize : (origin s).size < 2 ^ 63) {batch : Int} (hbatch : 0 < batch)
    (hunbroken : (r.overheard.copy batch ([], s)).2.1.Unbroken) :
    r.Completes origin target batch s (target s) ∧
      target (r.copy batch s).2 = (target s).insertAll (origin s).records := by
  obtain ⟨answer, hanswer, hfollows, htarget, horigin, hcount⟩ := h.copy_follows hsize hbatch
  obtain ⟨hnone, hserved⟩ := hfollows.eq_served hunbroken
  rw [hserved, CopyLog.written_served, CopyCall.writes_itinerary (by omega)] at htarget
  cases answer with
  | error f => cases hnone
  | ok count =>
    obtain rfl := hcount count rfl
    refine ⟨⟨hserved, hanswer, horigin, ?_⟩, htarget⟩
    rw [htarget]
    exact Store.overlays_insertAll _ (origin s).sorted

end CopyRoute

/-- Along any route between two stores, of which the source has fewer records than there are
offsets, a copy breaks off at the first call that fails: if that is to write the record at a
position, the records before it are written, and if it is to fetch a page, those of the full
pages before it. Whatever attempts were made, with whatever batches, the source is as it was and
the target holds a beginning of it over what it held; a copy after them of which no call fails
comes to its end, and leaves the target as a single copy does of which no call fails. -/
theorem broken_copy_is_prefix_and_resumes (σ : Type) (r : CopyRoute σ)
    (origin target : σ → Store) (h : r.Between origin target) (s : σ)
    (hsize : (origin s).size < 2 ^ 63) :
    (∀ batch : Int, 0 < batch →
      (∀ (k : Nat) (d : Device) (f : Failure), (origin s).records[k]? = some d →
        (.write d, some f) ∈ (r.overheard.copy batch ([], s)).2.1 →
        r.BreaksOff origin target batch s (.write d) f k) ∧
      (∀ (offset limit : Int) (f : Failure),
        (.fetch offset limit, some f) ∈ (r.overheard.copy batch ([], s)).2.1 →
        ∃ pages : Nat, offset = pages * batch ∧ offset ≤ (origin s).size ∧
          r.BreaksOff origin target batch s (.fetch offset limit) f offset.toNat) ∧
      ((r.overheard.copy batch ([], s)).2.1.Unbroken →
        r.Completes origin target batch s (target s))) ∧
    ∀ t, r.Attempted origin target s t →
      origin t = origin s ∧
      (∃ k, (target t).Overlays ((origin s).records.take k) (target s)) ∧
      ∀ batch : Int, 0 < batch → (r.overheard.copy batch ([], t)).2.1.Unbroken →
        r.Completes origin target batch t (target s) ∧
        ∀ (u : σ) (once : Int), origin u = origin s → target u = target s → 0 < once →
          (r.overheard.copy once ([], u)).2.1.Unbroken →
          target (r.copy batch t).2 = target (r.copy once u).2 := by
  refine ⟨fun batch hbatch => ⟨?_, ?_, fun hunbroken => ?_⟩, fun t ht => ?_⟩
  · intro k d f hk hfailed
    obtain ⟨done, hbreaks, -, hrecord⟩ := h.breaksOff hsize hbatch hfailed
    have hlt : k < (origin s).records.length := (List.getElem?_eq_some_iff.mp hk).1
    have hnodup := (Device.nodup_localIds (origin s).sorted).of_map
    obtain rfl := (List.getElem?_inj hlt hnodup).mp (hk.trans (hrecord d rfl).symm)
    exact hbreaks
  · intro offset limit f hfailed
    obtain ⟨done, hbreaks, hpage, -⟩ := h.breaksOff hsize hbatch hfailed
    obtain ⟨pages, hoffset, hwithin, rfl⟩ := hpage offset limit rfl
    exact ⟨pages, hoffset, hwithin, hbreaks⟩
  · exact (h.completes hsize hbatch hunbroken).1
  · obtain ⟨horigin, k, htarget⟩ := h.attempted_takes hsize ht
    refine ⟨horigin, ⟨k, ?_⟩, fun batch hbatch hunbroken => ?_⟩
    · rw [htarget]
      exact Store.overlays_insertAll_take _ _ k
    obtain ⟨hcompletes, hall⟩ := h.completes (horigin ▸ hsize) hbatch hunbroken
    -- The beginning that the attempts have written is written once more.
    have hresumed : target (r.copy batch t).2 = (target s).insertAll (origin s).records := by
      rw [hall, htarget, horigin]
      exact Store.insertAll_insertAll_of_sublist _ (origin s).sorted (List.take_sublist ..)
    refine ⟨⟨hcompletes.calls, hcompletes.answer, hcompletes.source, ?_⟩, ?_⟩
    · rw [hresumed, horigin]
      exact Store.overlays_insertAll _ (origin s).sorted
    · intro u once hsource htarget' honce hsingle
      rw [hresumed, (h.completes (hsource ▸ hsize) honce hsingle).2, htarget', hsource]

namespace Shelves

/-- The two stores, of which the one that is written to takes a single record more. -/
def crammed : Shelves := pair.put "there" ((pair.find "there").turn .write 1 .failed)

/-- The two stores after that record was written, with room again. -/
def cleared : Shelves :=
  pair.put "there" { store := (pair.content "there").insert (Device.named "d1" "lamp") }

end Shelves

/-- A copy breaks off at the second of three records; once there is room again, another one
with a larger batch copies all of them. -/
theorem crammed_pair_resumes :
    (Shelves.route "here" "there").BreaksOff (Shelves.content "here") (Shelves.content "there") 2
      Shelves.crammed (.write (Device.named "d2" "fan")) diskFull 1 ∧
    (Shelves.route "here" "there").Completes (Shelves.content "here") (Shelves.content "there") 5
      Shelves.cleared (Shelves.crammed.content "there") := by
  have hmain := broken_copy_is_prefix_and_resumes Shelves (Shelves.route "here" "there")
    (Shelves.content "here") (Shelves.content "there") (Shelves.route_between _ _)
    Shelves.crammed (by decide)
  have hbreaks := (hmain.1 2 (by decide)).1 1 (Device.named "d2" "fan") diskFull rfl (by
    rw [CopyRoute.copy, dif_pos (by decide), CopyRoute.copyFrom]
    decide)
  have hcleared : (Shelves.route "here" "there").Attempted (Shelves.content "here")
      (Shelves.content "there") Shelves.crammed Shelves.cleared := by
    refine .mend (.copy 2 .start) ?_ ?_
    · rw [hbreaks.source]
      rfl
    · apply Store.ext_find?
      intro id
      have hone : [Device.named "d1" "lamp"].Pairwise Device.precedes :=
        List.pairwise_singleton ..
      rw [hbreaks.content id]
      exact Store.find?_insertAll (Shelves.crammed.content "there") hone id
  have hunbroken : ((Shelves.route "here" "there").overheard.copy 5
      ([], Shelves.cleared)).2.1.Unbroken := by
    obtain ⟨after, hrun, -⟩ := (Shelves.route_between "here" "there").copy_of_reliable
      (Shelves.route_reliable "here" "there") (by decide : (0 : Int) < 5)
      (s := ([], Shelves.cleared))
      ⟨fun _ => rfl, fun _ => rfl⟩ (by decide)
    rw [hrun]
    intro call hcall
    obtain ⟨_, -, rfl⟩ := List.mem_map.mp hcall
    rfl
  exact ⟨hbreaks, ((hmain.2 _ hcleared).2.2 5 (by decide) hunbroken).1⟩

end WaitingRoom
