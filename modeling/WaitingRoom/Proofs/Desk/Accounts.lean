import WaitingRoom.Proofs.Desk.Handovers

/-!
# The accounts of removals

Removals that are put off are accounted for one to one. Where a wait is configured there is one
for each device that is handed over, put off from that time until the wait is over, and where none
is configured there is none. Each is carried out once when it is due, none before that, and none
is ever given up; what is carried out deletes under its own local id or does nothing, and nobody is
told.
-/

namespace WaitingRoom

/-! ## When time passes -/

namespace World

variable {w : World}

/-- The removals that wait after time has passed are those that waited before and were not due. -/
theorem pass_removals (w : World) (millis : Nat) :
    (w.pass millis).removals = w.removals.filter fun r => w.elapsed + millis < r.due := by
  have hframe : (w.pass millis).removals =
      w.removals.filter fun r => !(r.due ≤ w.elapsed + millis) := (foldl_carryOut_frame _ _).1
  rw [hframe]
  refine List.filter_congr fun r _ => ?_
  rw [← decide_not, decide_eq_decide, Nat.not_le]

/-- Where time has just passed no removal that waits is due. -/
theorem lt_due_of_mem_pass {millis : Nat} {r : Removal} (hr : r ∈ (w.pass millis).removals) :
    (w.pass millis).elapsed < r.due := by
  have helapsed : (w.pass millis).elapsed = w.elapsed + millis := (foldl_carryOut_unseen _ _).1
  rw [pass_removals, List.mem_filter, decide_eq_true_eq] at hr
  rw [helapsed]
  exact hr.2

/-- Each removal is carried out by one act. -/
theorem carriedOut_actsOfRemovals (rs : List Removal) (w : World) :
    carriedOut (w.actsOfRemovals rs) = rs := by
  induction rs generalizing w with
  | nil => rfl
  | cons r rest ih => exact congrArg (r :: ·) (ih (w.carryOut r))

/-- Removals that are carried out hand nothing over and put nothing off. -/
theorem handovers_actsOfRemovals (rs : List Removal) (w : World) :
    handovers (w.actsOfRemovals rs) = [] ∧ putOffs (w.actsOfRemovals rs) = [] := by
  induction rs generalizing w with
  | nil => exact ⟨rfl, rfl⟩
  | cons r rest ih => exact ih (w.carryOut r)

end World

/-! ## Accounts that are in order -/

variable {v : World} {acts : List Act}

/-- Whether the accounts are in order after a row of acts. There is a removal for each device that
was handed over. Each has been carried out or waits, and of those that fall due later on all wait;
what has been carried out was due, and where removals wait some time none that waits is due. -/
structure Accounted (v : World) (acts : List Act) : Prop where
  covered : putOffs acts = (handovers acts).filterMap (Handover.removal? v.wait)
  kept : (carriedOut acts ++ v.removals).Perm (putOffs acts)
  later : ∀ time, v.elapsed ≤ time →
    (v.removals.filter fun r => time < r.due) = (putOffs acts).filter fun r => time < r.due
  due : ∀ r ∈ carriedOut acts, r.due ≤ v.elapsed
  waiting : ∀ wait, v.wait = some wait → 0 < wait → ∀ r ∈ v.removals, v.elapsed < r.due

namespace Accounted

/-- Accounts are opened where no removals wait. -/
theorem opened (hopens : v.removals = []) : Accounted v [] := by
  constructor
  · rfl
  · rw [hopens]
    exact .refl _
  · intro time _
    rw [hopens]
    rfl
  · intro r hr
    cases hr
  · intro wait _ _ r hr
    rw [hopens] at hr
    cases hr

/-- An operation is asked for. -/
theorem request (h : Accounted v acts) (token : Token) (op : Operation) :
    Accounted (v.perform token op) (acts ++ v.actsAt (.request token op)) := by
  have hcovers := v.covers_operation token op
  have hput : putOffs (v.actsAt (.request token op)) =
      (v.callsOf token op).filterMap Moment.putOff? := List.filterMap_map
  have hhanded : handovers (v.actsAt (.request token op)) =
      (v.callsOf token op).filterMap Moment.handover? := List.filterMap_map
  have hcarried : carriedOut (v.actsAt (.request token op)) = [] := by
    rw [carriedOut, World.actsAt, List.filterMap_map]
    exact List.filterMap_eq_nil_iff.mpr fun _ _ => rfl
  have hremovals : (v.perform token op).removals =
      v.removals ++ putOffs (v.actsAt (.request token op)) := by
    rw [hput]
    exact World.run_removals_eq _ v
  obtain ⟨helapsed, hwait⟩ : (v.perform token op).elapsed = v.elapsed ∧
    (v.perform token op).wait = v.wait := World.run_times _ v
  constructor
  · rw [putOffs_append, handovers_append, List.filterMap_append, hwait, h.covered, hput, hhanded]
    exact congrArg _ hcovers
  · rw [carriedOut_append, putOffs_append, hcarried, List.append_nil, hremovals,
      ← List.append_assoc]
    exact h.kept.append_right _
  · intro time htime
    rw [helapsed] at htime
    rw [putOffs_append, hremovals, List.filter_append, List.filter_append, h.later time htime]
  · intro r hr
    rw [carriedOut_append, hcarried, List.append_nil] at hr
    rw [helapsed]
    exact h.due r hr
  · intro wait hconfigured hpos r hr
    rw [hwait] at hconfigured
    rw [helapsed]
    rcases World.run_removals _ v hr with hold | ⟨-, wait', hwait', hdue⟩
    · exact h.waiting wait hconfigured hpos r hold
    · obtain rfl : wait = wait' := Option.some.inj (hconfigured.symm.trans hwait')
      omega

/-- The clock is set. -/
theorem setClock (h : Accounted v acts) (now : Time.Instant) :
    Accounted { v with clock := now } acts :=
  ⟨h.covered, h.kept, h.later, h.due, h.waiting⟩

/-- Time passes. -/
theorem pass (h : Accounted v acts) (millis : Nat) :
    Accounted (v.pass millis) (acts ++ v.actsAt (.pass millis)) := by
  obtain ⟨hhanded, hput⟩ : handovers (v.actsAt (.pass millis)) = [] ∧
    putOffs (v.actsAt (.pass millis)) = [] := World.handovers_actsOfRemovals _ _
  have hcarried : carriedOut (v.actsAt (.pass millis)) =
      { v with elapsed := v.elapsed + millis : World }.dueRemovals :=
    World.carriedOut_actsOfRemovals _ _
  have hremovals := v.pass_removals millis
  have hwait : (v.pass millis).wait = v.wait := (World.foldl_carryOut_frame _ _).2
  have helapsed : (v.pass millis).elapsed = v.elapsed + millis :=
    (World.foldl_carryOut_unseen _ _).1
  constructor
  · rw [putOffs_append, handovers_append, hhanded, hput, hwait, List.append_nil, List.append_nil]
    exact h.covered
  · rw [carriedOut_append, putOffs_append, hput, List.append_nil, hcarried, List.append_assoc]
    refine .trans (.append_left _ ?_) h.kept
    rw [hremovals, World.dueRemovals]
    refine .trans ((List.mergeSort_perm _ _).append_right _) ?_
    -- what waited before is either due or waits still
    have hsplit := List.filter_append_perm (fun r => decide (r.due ≤ v.elapsed + millis)) v.removals
    simpa only [← decide_not, Nat.not_le] using hsplit
  · intro time htime
    rw [helapsed] at htime
    rw [putOffs_append, hput, List.append_nil, hremovals, List.filter_filter,
      ← h.later time (by omega)]
    refine List.filter_congr fun r _ => ?_
    simp only [Bool.and_eq_left_iff_imp, decide_eq_true_eq]
    omega
  · intro r hr
    rw [helapsed]
    rw [carriedOut_append, hcarried] at hr
    rcases List.mem_append.mp hr with hr | hr
    · exact Nat.le_trans (h.due r hr) (Nat.le_add_right _ _)
    · exact (World.mem_due.mp hr).2
  · intro wait _ _ r hr
    exact World.lt_due_of_mem_pass hr

/-- Where no removal that waits is due, those that have fallen due have been carried out, and the
others wait. -/
theorem settled (h : Accounted v acts) (hsettled : ∀ r ∈ v.removals, v.elapsed < r.due) :
    (carriedOut acts).Perm ((putOffs acts).filter fun r => r.due ≤ v.elapsed) ∧
      v.removals = (putOffs acts).filter fun r => v.elapsed < r.due := by
  constructor
  · -- what is kept is cut down on both sides to what is due
    have hdue : (carriedOut acts).filter (fun r => r.due ≤ v.elapsed) = carriedOut acts :=
      List.filter_eq_self.mpr fun r hr => decide_eq_true (h.due r hr)
    have hnone : v.removals.filter (fun r => r.due ≤ v.elapsed) = [] :=
      List.filter_eq_nil_iff.mpr fun r hr => by simpa using hsettled r hr
    have hkept := h.kept.filter fun r => decide (r.due ≤ v.elapsed)
    rwa [List.filter_append, hdue, hnone, List.append_nil] at hkept
  · rw [← h.later v.elapsed (Nat.le_refl _)]
    exact (List.filter_eq_self.mpr fun r hr => decide_eq_true (hsettled r hr)).symm

end Accounted

/-- The accounts are in order after every row of occasions. -/
theorem accounted_actsAlong (w : World) (hopens : w.removals = []) (past : List Occasion) :
    Accounted (w.meetAll past) (w.actsAlong past) := by
  induction past using List.reverseRecOn with
  | nil => exact .opened hopens
  | append_singleton past o ih =>
    rw [World.actsAlong_append_singleton, World.meetAll_append_singleton]
    cases o with
    | request token op => exact ih.request token op
    | setClock now =>
      rw [World.actsAt, List.append_nil]
      exact ih.setClock now
    | pass millis => exact ih.pass millis

/-! ## What a removal does -/

/-- Whether an act carries a removal out as it should be: it deletes under the local id of the
removal when that is due, touches nothing else, and does nothing at all if the store fails. -/
structure Act.CarriesOut (act : Act) (r : Removal) : Prop where
  call : act.call = .remove r.localId
  due : r.due ≤ act.world.elapsed
  confined : ∀ id, id ≠ r.localId →
    (act.world.after act.call).store.find? id = act.world.store.find? id
  ledger : (act.world.after act.call).ledger =
    if act.world.service.next .remove = .served then
      { act.world.ledger with store := act.world.store.erase r.localId }
    else act.world.ledger

/-- A deletion under the local id of a removal that is due carries it out as it should be. -/
theorem Act.CarriesOut.of_remove {act : Act} {r : Removal} (hcall : act.call = .remove r.localId)
    (hdue : r.due ≤ act.world.elapsed) : act.CarriesOut r := by
  refine ⟨hcall, hdue, fun id hid => ?_, ?_⟩
  · by_contra hchanged
    rcases World.after_find? hchanged with ⟨d, hwrite, -⟩ | ⟨hremove, -⟩
    · rw [hcall] at hwrite
      cases hwrite
    · rw [hcall] at hremove
      exact hid (Call.remove.inj hremove).symm
  · have hstore := StoreService.answer_store act.world.service .remove
      ((.ok (), act.world.store.erase r.localId) : Except Failure Unit × Store)
    rw [hcall]
    split
    · rename_i hserved
      exact Ledger.ext (hstore.trans (if_pos hserved)) rfl rfl rfl
    · rename_i hfails
      exact Ledger.ext (hstore.trans (if_neg hfails)) rfl rfl rfl

/-- Every act of a removal carries it out as it should be. -/
theorem World.carriesOut_of_mem_actsAlong (w : World) (past : List Occasion) {act : Act}
    {r : Removal} (hact : act ∈ w.actsAlong past) (hdoer : act.doer = .removal r) :
    act.CarriesOut r := by
  induction past using List.reverseRecOn with
  | nil => cases hact
  | append_singleton past o ih =>
    rw [actsAlong_append_singleton] at hact
    rcases List.mem_append.mp hact with hact | hact
    · exact ih hact
    · cases o with
      | request token op =>
        obtain ⟨m, -, rfl⟩ := List.mem_map.mp hact
        cases hdoer
      | setClock now => cases hact
      | pass millis =>
        obtain ⟨r', hr', hdoer', hcall, helapsed⟩ := of_mem_actsOfRemovals hact
        obtain rfl : r = r' := Doer.removal.inj (hdoer.symm.trans hdoer')
        refine .of_remove hcall ?_
        rw [helapsed]
        exact (mem_due.mp hr').2

/-! ## The accounts in full -/

/-- Whether removals that are due after a row of occasions have had the time to be carried out:
where they do not wait at all, time has just passed, be it none. -/
def World.HasSettled (w : World) (past : List Occasion) : Prop :=
  w.wait = some 0 → ∃ earlier millis, past = earlier ++ [.pass millis]

/-- Removals that are due do not wait once they have had the time to be carried out. -/
theorem World.HasSettled.lt_due {w : World} {past : List Occasion} (h : w.HasSettled past)
    (haccounted : Accounted (w.meetAll past) (w.actsAlong past)) :
    ∀ r ∈ (w.meetAll past).removals, (w.meetAll past).elapsed < r.due := by
  have hwait := meetAll_wait w past
  cases hconfigured : w.wait with
  | none =>
    intro r hr
    have hnone : putOffs (w.actsAlong past) = [] := by
      rw [haccounted.covered, hwait, hconfigured]
      exact List.filterMap_eq_nil_iff.mpr fun _ _ => rfl
    have hmem := haccounted.kept.subset (List.mem_append_right _ hr)
    rw [hnone] at hmem
    cases hmem
  | some wait =>
    rcases Nat.eq_zero_or_pos wait with rfl | hpos
    · obtain ⟨earlier, millis, rfl⟩ := h hconfigured
      rw [meetAll_append_singleton]
      exact fun r hr => lt_due_of_mem_pass hr
    · exact haccounted.waiting wait (hwait.trans hconfigured) hpos

/-- A removal that is carried out is an act, and if it is served and nobody writes a record under
its local id later, then none is there. -/
theorem World.exists_act_of_mem_carriedOut {w : World} {past : List Occasion} {r : Removal}
    (hr : r ∈ carriedOut (w.actsAlong past)) :
    ∃ before act after, w.actsAlong past = before ++ act :: after ∧ act.doer = .removal r ∧
      (act.world.service.next .remove = .served →
        (∀ other ∈ after, ∀ d, other.call = .write d → d.localId ≠ r.localId) →
        (w.meetAll past).store.find? r.localId = none) := by
  obtain ⟨act, hact, hremoval⟩ := List.mem_filterMap.mp hr
  have hdoer : act.doer = .removal r := by
    unfold Act.removal? at hremoval
    split at hremoval
    · rename_i hdoer
      rw [hdoer, Option.some.inj hremoval]
    · cases hremoval
  obtain ⟨before, after, hacts⟩ := List.append_of_mem hact
  refine ⟨before, act, after, hacts, hdoer, fun hserved hnever => ?_⟩
  have hlinked := w.linked_actsAlong past
  rw [hacts] at hlinked
  apply hlinked.find?_eq_none _ hnever
  have hledger := (w.carriesOut_of_mem_actsAlong past hact hdoer).ledger
  rw [if_pos hserved] at hledger
  have hstore : (act.world.after act.call).store = act.world.store.erase r.localId :=
    congrArg Ledger.store hledger
  rw [hstore, Store.find?_erase, if_pos rfl]

/-- **Removals are accounted for.** At a desk that opens without removals put off none is ever put
off where no wait is configured, and where one is there is one for each device that was handed
over, under the same local id and due when the wait is over. Each has been carried out or waits.
Once those that are due have had the time for it, exactly they have been carried out, and exactly
the others wait. A removal that is carried out deletes under its own local id and touches nothing
else, does nothing if the store fails, and nobody is told of it. So a record that stayed where it
was when its device was handed over is gone when the removal has been served, unless somebody
writes it again. -/
theorem removals_are_accounted_for (w : World) (hopens : w.removals = [])
    (past : List Occasion) :
    let v := w.meetAll past
    let acts := w.actsAlong past
    (w.wait = none → putOffs acts = []) ∧
    (∀ wait, w.wait = some wait →
      putOffs acts = (handovers acts).map fun h => ⟨h.localId, h.time + wait⟩) ∧
    (carriedOut acts ++ v.removals).Perm (putOffs acts) ∧
    (w.HasSettled past →
      (carriedOut acts).Perm ((putOffs acts).filter fun r => r.due ≤ v.elapsed) ∧
      v.removals = (putOffs acts).filter fun r => v.elapsed < r.due) ∧
    (∀ act ∈ acts, ∀ r, act.doer = .removal r → act.CarriesOut r) ∧
    (∀ millis, w.replies (past ++ [.pass millis]) = w.replies past ∧
      (v.pass millis).notices = v.notices) ∧
    ∀ h ∈ handovers acts, ∀ wait, w.wait = some wait → w.HasSettled past →
      h.time + wait ≤ v.elapsed →
      ∃ before act after, acts = before ++ act :: after ∧
        act.doer = .removal ⟨h.localId, h.time + wait⟩ ∧
        (act.world.service.next .remove = .served →
          (∀ other ∈ after, ∀ d, other.call = .write d → d.localId ≠ h.localId) →
          v.store.find? h.localId = none) := by
  intro v acts
  have haccounted : Accounted v acts := accounted_actsAlong w hopens past
  have hwait : v.wait = w.wait := World.meetAll_wait w past
  have hone (wait : Nat) (hconfigured : w.wait = some wait) :
      putOffs acts = (handovers acts).map fun h => ⟨h.localId, h.time + wait⟩ := by
    rw [haccounted.covered, hwait, hconfigured]
    exact congrFun List.filterMap_eq_map _
  refine ⟨fun hnone => ?_, hone, haccounted.kept, fun hsettled => ?_,
    fun act hact r => w.carriesOut_of_mem_actsAlong past hact, fun millis => ?_, ?_⟩
  · rw [haccounted.covered, hwait, hnone]
    exact List.filterMap_eq_nil_iff.mpr fun _ _ => rfl
  · exact haccounted.settled (hsettled.lt_due haccounted)
  · exact ⟨w.replies_append_pass past millis, (World.foldl_carryOut_unseen _ _).2.1⟩
  · intro h hh wait hconfigured hsettled hdue
    obtain ⟨hcarried, -⟩ := haccounted.settled (hsettled.lt_due haccounted)
    have hput : (⟨h.localId, h.time + wait⟩ : Removal) ∈ putOffs acts := by
      rw [hone wait hconfigured]
      exact List.mem_map.mpr ⟨h, hh, rfl⟩
    have hmem : (⟨h.localId, h.time + wait⟩ : Removal) ∈ carriedOut acts :=
      hcarried.symm.subset (List.mem_filter.mpr ⟨hput, decide_eq_true hdue⟩)
    exact World.exists_act_of_mem_carriedOut hmem

/-- A user's lamp at a desk at which removals wait a minute and the first deletion fails. -/
def clumsyDesk : World :=
  { minuteDesk with
    service := {
      store := Store.empty.insert { Device.named "d1" "lamp" with userId := "alice" }
      forecast := fun call n => if call = .remove ∧ n = 0 then .failed else .served } }

/-- The lamp is used, and a minute passes. -/
def lampUsed : List Occasion :=
  [.request ⟨"", "alice", Time.Instant.epoch⟩ (.use "d1"), .pass 60000]

/-- The lamp is there still when it has been used, and gone a minute later. -/
theorem lamp_goes_when_removal_is_due :
    clumsyDesk.removals = [] ∧
    ((clumsyDesk.meetAll (lampUsed.take 1)).store.find? "d1").isSome = true ∧
    putOffs (clumsyDesk.actsAlong lampUsed) = [⟨"d1", 60000⟩] ∧
    (clumsyDesk.meetAll lampUsed).store.find? "d1" = none := by
  have hopens : clumsyDesk.removals = [] := rfl
  have hhanded : handovers (clumsyDesk.actsAlong lampUsed) = [⟨"d1", 0⟩] := by decide +kernel
  have hserved : ∀ act ∈ clumsyDesk.actsAlong lampUsed, act.removal?.isSome →
      act.world.service.next .remove = .served := by decide +kernel
  have hunwritten : ∀ act ∈ clumsyDesk.actsAlong lampUsed,
      (match act.call with | .write _ => true | _ => false) = false := by decide +kernel
  obtain ⟨-, hput, -, -, -, -, hgone⟩ := removals_are_accounted_for clumsyDesk hopens lampUsed
  rw [hhanded] at hput hgone
  obtain ⟨before, act, after, hacts, hdoer, hgone⟩ :=
    hgone ⟨"d1", 0⟩ List.mem_cons_self 60000 rfl nofun (by decide +kernel)
  refine ⟨hopens, rfl, hput 60000 rfl, hgone (hserved act ?_ ?_) fun other hother d hwrite => ?_⟩
  · rw [hacts]
    exact List.mem_append_right _ List.mem_cons_self
  · rw [Act.removal?, hdoer]
    rfl
  · have hmem : other ∈ clumsyDesk.actsAlong lampUsed := by
      rw [hacts]
      exact List.mem_append_right _ (List.mem_cons_of_mem _ hother)
    have hnever := hunwritten other hmem
    rw [hwrite] at hnever
    cases hnever

end WaitingRoom
