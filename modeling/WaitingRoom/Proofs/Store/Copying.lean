import WaitingRoom.Proofs.Store.Itinerary
import WaitingRoom.Proofs.Store.Overlay
import WaitingRoom.Store.Shelves

/-!
# What a copy does

A copy follows its itinerary up to the first call that fails. What was written by then
lies over what the target held, and the source is as it was.
-/

namespace WaitingRoom

/-- Why a call failed, if it did. -/
def failure? {α : Type} : Except Failure α → Option Failure
  | .ok _ => none
  | .error f => some f

namespace CopyRoute

variable {σ : Type}

/-- The route on which every call is written down. -/
def overheard (r : CopyRoute σ) : CopyRoute (CopyLog × σ) where
  fetch offset limit s :=
    let (page, after) := r.fetch offset limit s.2
    (page, s.1 ++ [(.fetch offset limit, failure? page)], after)
  write d s :=
    let (written, after) := r.write d s.2
    (written, s.1 ++ [(.write d, failure? written)], after)
  note n s := (s.1, r.note n s.2)

/-! ## Writing down changes nothing -/

/-- What is answered, and what becomes of the state once the log is forgotten. -/
def unheard {α : Type} : α × CopyLog × σ → α × σ := Prod.map id Prod.snd

theorem overheard_writePage (r : CopyRoute σ) (copied : Nat) (page : List Device)
    (s : CopyLog × σ) :
    unheard (r.overheard.writePage copied page s) = r.writePage copied page s.2 := by
  induction page generalizing copied s with
  | nil => rfl
  | cons d rest ih =>
    rw [writePage, writePage]
    have hsame : unheard (r.overheard.write d s) = r.write d s.2 := rfl
    rw [← hsame]
    cases r.overheard.write d s with
    | mk written after =>
      cases written with
      | error f => rfl
      | ok _ => exact ih (copied + 1) after

theorem overheard_copyFrom (r : CopyRoute σ) (batch : Int) (hbatch : 0 < batch) (offset : Int)
    (copied : Nat) (s : CopyLog × σ) :
    unheard (r.overheard.copyFrom batch hbatch offset copied s) =
      r.copyFrom batch hbatch offset copied s.2 := by
  have hfetched {offset : Int} {s : CopyLog × σ} {page} {after : CopyLog × σ}
      (h : r.overheard.fetch offset batch s = (page, after)) :
      r.fetch offset batch s.2 = (page, after.2) := congrArg unheard h
  have hpaged {copied : Nat} {page : List Device} {n : CopyNote} {s after : CopyLog × σ} {count}
      (h : r.overheard.writePage copied page (r.overheard.note n s) = (count, after)) :
      r.writePage copied page (r.note n s.2) = (count, after.2) :=
    (overheard_writePage r copied page _).symm.trans (congrArg unheard h)
  fun_induction r.overheard.copyFrom batch hbatch offset copied s with
  | case1 offset copied s f after hfetch =>
    rw [copyFrom, hfetched hfetch]
    rfl
  | case2 offset copied s page after hfetch f last hpage =>
    rw [copyFrom, hfetched hfetch]
    simp [hpaged hpage, unheard]
  | case3 offset copied s page after hfetch count last hpage hlast =>
    rw [copyFrom, hfetched hfetch]
    simp [hpaged hpage, hlast, unheard, overheard]
  | case4 offset copied s page after hfetch count last hpage hlast hend =>
    rw [copyFrom, hfetched hfetch]
    simp [hpaged hpage, hlast, hend, unheard]
  | case5 offset copied s page after hfetch count last hpage hlast hend ih =>
    refine ih.trans (Eq.symm ?_)
    rw [copyFrom, hfetched hfetch]
    simp [hpaged hpage, hlast, hend]

/-- The copy that is written down is the copy. -/
theorem overheard_copy (r : CopyRoute σ) (batch : Int) (s : CopyLog × σ) :
    unheard (r.overheard.copy batch s) = r.copy batch s.2 := by
  unfold copy
  split
  · exact overheard_copyFrom ..
  · rfl

/-! ## Routes between two stores -/

/-- The route leads from one store to another, which may be the same one: a page that is
fetched is a window of the source, a record that is written is put into the target, a
write that fails changes neither store, and writing a record of the source leaves the source
as it is. Nothing is said about which calls succeed. -/
structure Between (r : CopyRoute σ) (origin target : σ → Store) : Prop where
  fetched : ∀ {offset limit : Int} {s after : σ} {page : List Device}, 0 ≤ offset → 0 < limit →
    r.fetch offset limit s = (.ok page, after) → page = (origin s).exportPage offset limit
  fetch_origin : ∀ offset limit s, origin (r.fetch offset limit s).2 = origin s
  fetch_target : ∀ offset limit s, target (r.fetch offset limit s).2 = target s
  written : ∀ {d : Device} {s after : σ},
    r.write d s = (.ok (), after) → target after = (target s).insert d
  unwritten : ∀ {d : Device} {s after : σ} {f : Failure},
    r.write d s = (.error f, after) → target after = target s
  write_origin : ∀ {d : Device} {s : σ}, d ∈ (origin s).records →
    origin (r.write d s).2 = origin s
  note_origin : ∀ n s, origin (r.note n s) = origin s
  note_target : ∀ n s, target (r.note n s) = target s

/-- What a part of a copy comes to: its calls follow a plan, what they wrote lies over what
the target held, and the source is as it was. -/
structure Carried {α : Type} (origin target : σ → Store) (plan : List CopyCall)
    (before : CopyLog × σ) (answer : Except Failure α) (after : CopyLog × σ) : Prop where
  calls : ∃ made : CopyLog, after.1 = before.1 ++ made ∧ made.Follows plan (failure? answer) ∧
    target after.2 = (target before.2).insertAll made.written
  origin : origin after.2 = origin before.2

namespace Carried

variable {α β : Type} {origin target : σ → Store} {plan next : List CopyCall}
  {s t u : CopyLog × σ} {answer : Except Failure α}

theorem append {a : β} (h : Carried origin target plan s (.ok a) t)
    (hnext : Carried origin target next t answer u) :
    Carried origin target (plan ++ next) s answer u := by
  obtain ⟨⟨made, hlog, hfollows, htarget⟩, horigin⟩ := h
  obtain ⟨⟨more, hlog', hfollows', htarget'⟩, horigin'⟩ := hnext
  refine ⟨⟨made ++ more, ?_, hfollows.append hfollows', ?_⟩, horigin'.trans horigin⟩
  · rw [hlog', hlog, List.append_assoc]
  · rw [htarget', htarget, CopyLog.written_append, Store.insertAll_append]

/-- After a failure the rest of the plan is left. -/
theorem stop {f : Failure} (h : Carried origin target plan s (.error f : Except Failure β) t) :
    Carried origin target (plan ++ next) s (.error f : Except Failure α) t := by
  obtain ⟨⟨made, hlog, hfollows, htarget⟩, horigin⟩ := h
  exact ⟨⟨made, hlog, hfollows.stop, htarget⟩, horigin⟩

end Carried

section Between

variable {r : CopyRoute σ} {origin target : σ → Store}

theorem Between.carried_fetch (h : r.Between origin target) (offset limit : Int)
    (s : CopyLog × σ) {page : Except Failure (List Device)} {after : CopyLog × σ}
    (hfetch : r.overheard.fetch offset limit s = (page, after)) :
    Carried origin target [.fetch offset limit] s page after := by
  obtain rfl : (r.fetch offset limit s.2).1 = page := congrArg Prod.fst hfetch
  obtain rfl : (s.1 ++ [(.fetch offset limit, failure? (r.fetch offset limit s.2).1)],
    (r.fetch offset limit s.2).2) = after := congrArg Prod.snd hfetch
  refine ⟨⟨_, rfl, CopyLog.follows_singleton .., ?_⟩, h.fetch_origin ..⟩
  rw [h.fetch_target]
  cases (r.fetch offset limit s.2).1 <;> rfl

theorem Between.carried_write (h : r.Between origin target) {d : Device} {s : CopyLog × σ}
    (hmem : d ∈ (origin s.2).records) {written : Except Failure Unit} {after : CopyLog × σ}
    (hwrite : r.overheard.write d s = (written, after)) :
    Carried origin target [.write d] s written after := by
  have hroute : r.write d s.2 = (written, after.2) := congrArg unheard hwrite
  have hlog : after.1 = s.1 ++ [(.write d, failure? written)] := by
    rw [← congrArg (fun answered => answered.2.1) hwrite]
    change s.1 ++ [(.write d, failure? (r.write d s.2).1)] = _
    rw [hroute]
  have horigin := h.write_origin hmem
  rw [hroute] at horigin
  refine ⟨⟨_, hlog, CopyLog.follows_singleton .., ?_⟩, horigin⟩
  cases written with
  | ok _ => exact h.written hroute
  | error f => exact h.unwritten hroute

theorem Between.carried_note (h : r.Between origin target) {α : Type} {plan : List CopyCall}
    {s t : CopyLog × σ} {answer : Except Failure α}
    (hcarried : Carried origin target plan s answer t)
    (n : CopyNote) : Carried origin target plan s answer (r.overheard.note n t) := by
  obtain ⟨⟨made, hlog, hfollows, htarget⟩, horigin⟩ := hcarried
  exact ⟨⟨made, hlog, hfollows, (h.note_target ..).trans htarget⟩,
    (h.note_origin ..).trans horigin⟩

/-- The records of a page are written in order, up to the first that is refused. -/
theorem Between.carried_writePage (h : r.Between origin target) (copied : Nat)
    {page : List Device} {s : CopyLog × σ} (hpage : page ⊆ (origin s.2).records) :
    Carried origin target (page.map .write) s (r.overheard.writePage copied page s).1
      (r.overheard.writePage copied page s).2 := by
  induction page generalizing copied s with
  | nil => exact ⟨⟨[], (List.append_nil _).symm, rfl, rfl⟩, rfl⟩
  | cons d rest ih =>
    obtain ⟨hd, hrest⟩ := List.cons_subset.mp hpage
    rw [writePage, List.map_cons, ← List.singleton_append]
    cases hwrite : r.overheard.write d s with
    | mk written after =>
      have hfirst := h.carried_write hd hwrite
      cases written with
      | error f => exact (h.carried_note hfirst _).stop
      | ok _ => exact hfirst.append (ih (copied + 1) (hfirst.origin ▸ hrest))

/-- A page that was written counts in full. -/
theorem writePage_count {r : CopyRoute σ} {copied count : Nat} {page : List Device} {s after : σ}
    (hok : r.writePage copied page s = (.ok count, after)) : count = copied + page.length := by
  induction page generalizing copied s with
  | nil => exact (Except.ok.inj (congrArg Prod.fst hok)).symm
  | cons d rest ih =>
    rw [writePage] at hok
    cases hwrite : r.write d s with
    | mk written after =>
      rw [hwrite] at hok
      cases written with
      | error f => cases congrArg Prod.fst hok
      | ok _ =>
        rw [ih hok, List.length_cons]
        omega

/-- A page of a store that starts within it. -/
theorem exportPage_nat (s : Store) (offset limit : Nat) :
    s.exportPage offset limit = (s.records.drop offset).take limit := by
  rw [Store.exportPage, window, if_neg (Int.not_lt.mpr (Int.natCast_nonneg _)),
    if_neg (Int.not_lt.mpr (Int.natCast_nonneg _))]
  rfl

/-- One page of a copy: a call for it fails, and so does the copy; or the page is written,
and the copy goes on with what is left to decide. -/
theorem Between.copyFrom_page (h : r.Between origin target) {batch : Nat}
    (hbatch : 0 < (batch : Int)) (offset copied : Nat) (s : CopyLog × σ) :
    let page := ((origin s.2).records.drop offset).take batch
    let plan := .fetch offset batch :: page.map .write
    let run := r.overheard.copyFrom batch hbatch offset copied s
    (∃ f t, run = (some (.error f), t) ∧
      Carried origin target plan s (.error f : Except Failure Nat) t) ∨
    ∃ t, Carried origin target plan s (.ok (copied + page.length)) t ∧
      run = if (page.length : Int) < batch then
          (some (.ok (copied + page.length)),
            r.overheard.note (.finished (copied + page.length)) t)
        else if lastOffset < (offset : Int) + batch then (none, t)
        else r.overheard.copyFrom batch hbatch (offset + batch) (copied + page.length) t := by
  intro page plan run
  have hrun : run = r.overheard.copyFrom batch hbatch offset copied s := rfl
  rw [copyFrom] at hrun
  cases hfetch : r.overheard.fetch offset batch s with
  | mk fetched after =>
    rw [hfetch] at hrun
    have hfirst := h.carried_fetch _ _ _ hfetch
    cases fetched with
    | error f => exact .inl ⟨f, after, hrun, hfirst.stop⟩
    | ok fetched =>
      obtain rfl : fetched = page :=
        (h.fetched (Int.natCast_nonneg _) hbatch (congrArg unheard hfetch)).trans
          (exportPage_nat ..)
      have hnoted := h.carried_note hfirst (.page offset page.length)
      have hpage : page ⊆ (origin (r.overheard.note (.page offset page.length) after).2).records :=
        hnoted.origin ▸ fun d hd => List.mem_of_mem_drop (List.mem_of_mem_take hd)
      have hwritten := h.carried_writePage copied hpage
      cases hwrite : r.overheard.writePage copied page
          (r.overheard.note (.page offset page.length) after) with
      | mk counted t =>
        simp only [hwrite] at hrun hwritten
        cases counted with
        | error f => exact .inl ⟨f, t, hrun, hnoted.append hwritten⟩
        | ok count =>
          obtain rfl := writePage_count hwrite
          exact .inr ⟨t, hnoted.append hwritten, hrun⟩

/-- From a page on, a copy follows the itinerary: `left` more full pages, and one that is not.
An offset is left for each of them, since there is one for each record. -/
theorem Between.carried_copyFrom (h : r.Between origin target) {batch : Nat}
    (hbatch : 0 < (batch : Int)) {records : List Device}
    (hsize : (records.length : Int) ≤ lastOffset) {page left : Nat} {s : CopyLog × σ}
    (hleft : page + left = records.length / batch) (hrecords : (origin s.2).records = records) :
    ∃ answer, (r.overheard.copyFrom batch hbatch (page * batch : Nat) (page * batch) s).1 =
        some answer ∧
      Carried origin target (CopyCall.legs batch records page (left + 1)) s answer
        (r.overheard.copyFrom batch hbatch (page * batch : Nat) (page * batch) s).2 ∧
      ∀ count, answer = .ok count → count = records.length := by
  have hpos : 0 < batch := Int.natCast_pos.mp hbatch
  have hfull : (page + left) * batch ≤ records.length := hleft ▸ Nat.div_mul_le_self _ _
  have hend : records.length < (page + left + 1) * batch := by
    rw [hleft, Nat.mul_comm]
    exact Nat.lt_mul_div_succ _ hpos
  induction left generalizing page s with
  | zero =>
    have hstep := h.copyFrom_page hbatch (page * batch) (page * batch) s
    rw [hrecords] at hstep
    rw [CopyCall.legs_succ]
    rcases hstep with ⟨f, t, hrun, hcarried⟩ | ⟨t, hcarried, hrun⟩
    · rw [hrun]
      exact ⟨.error f, rfl, hcarried.stop, nofun⟩
    · rw [Nat.add_zero] at hfull
      rw [Nat.add_zero, Nat.succ_mul] at hend
      have hlength : ((records.drop (page * batch)).take batch).length =
          records.length - page * batch := by
        rw [List.length_take, List.length_drop]
        omega
      rw [hlength] at hcarried
      rw [hlength, if_pos (by omega)] at hrun
      rw [hrun]
      have hlast : CopyCall.legs batch records (page + 1) 0 = [] := rfl
      rw [hlast, List.append_nil]
      refine ⟨_, rfl, h.carried_note hcarried _, fun count hok => ?_⟩
      · rw [← Except.ok.inj hok]
        omega
  | succ left ih =>
    have hstep := h.copyFrom_page hbatch (page * batch) (page * batch) s
    rw [hrecords] at hstep
    rw [CopyCall.legs_succ]
    rcases hstep with ⟨f, t, hrun, hcarried⟩ | ⟨t, hcarried, hrun⟩
    · rw [hrun]
      exact ⟨.error f, rfl, hcarried.stop, nofun⟩
    · have hmore : page * batch + batch ≤ records.length := by
        rw [← Nat.succ_mul]
        exact Nat.le_trans (Nat.mul_le_mul_right _ (by omega)) hfull
      have hlength : ((records.drop (page * batch)).take batch).length = batch := by
        rw [List.length_take, List.length_drop]
        omega
      rw [hlength, if_neg (by omega), if_neg (by omega)] at hrun
      rw [← Nat.succ_mul, ← Int.natCast_add, ← Nat.succ_mul] at hrun
      rw [hrun]
      have hnext : page + 1 + left = records.length / batch := by omega
      obtain ⟨answer, hanswer, hrest, hcount⟩ := ih hnext
        ((congrArg Store.records hcarried.origin).trans hrecords)
        (by rwa [Nat.add_right_comm]) (by rwa [Nat.add_right_comm page 1 left])
      exact ⟨answer, hanswer, hcarried.append hrest, hcount⟩

end Between

end CopyRoute

end WaitingRoom
