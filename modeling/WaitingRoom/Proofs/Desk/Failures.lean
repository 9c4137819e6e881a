import WaitingRoom.Proofs.Desk.Courses

/-!
# Failed operations

An operation on one record that fails does so at the first step of its course that fails, and
leaves no trace: no record has changed, no notice has been given, nothing has been handed over and
nothing put off. Only a device that has been handed over stays so if its record cannot be deleted
then, and its removal has been put off by that time. An operation that succeeds gives notice once,
when all else is done.
-/

namespace WaitingRoom

namespace Operation

/-- Reading a record, which is to be the user's. -/
def owning (w : World) (user id : String) : Course :=
  [.calling (.read id) (w.service.fault? .read),
   .checking (match w.store.find? id with
    | none => some (.noDevice id)
    | some d => if d.userId = user then none else some (.foreignDevice id))]

/-- Writing a record and giving notice of it. -/
def writing (w : World) (user : String) (d : Device) (id : String) : Course :=
  [.calling (.write d) (w.service.fault? .write), .calling (.notify user ⟨.set, id⟩)]

/-- Deleting a record and giving notice of what became of it. -/
def discarding (w : World) (user id : String) (change : Change) : Course :=
  [.calling (.remove id) (w.service.fault? .remove), .calling (.notify user ⟨change, id⟩)]

/-- Handing a record over and putting its removal off. -/
def handingOver (w : World) (token : Token) (d : Device) (id : String) : Course :=
  [.calling (.adopt token d) w.refusal?, .calling (.removeLater id)]

/-- The course of an operation on one record: a batch has none of its own. What is asked is
checked before anything is called, and the store checks the options of a listing when it is
called. What is found under the local id of a payload may be nothing. -/
def course (w : World) (token : Token) : Operation → Course
  | list o =>
    [.calling (.list token.userId o) (w.service.fault? .list),
     .checking (match o.order with
      | .ok _ => none
      | .error f => some f)]
  | read id => owning w token.userId id
  | set payload =>
    .checking (if payload.localId = "" then some (.invalidArgument "missing local_id") else none) ::
    .calling .now ::
    .calling (.read payload.localId) (w.service.fault? .read) ::
    match w.store.find? payload.localId with
    | none =>
      writing w token.userId
        { payload with
          createdAt := w.clock, hidden := false, updatedAt := w.clock, userId := token.userId }
        payload.localId
    | some old =>
      .checking (if old.userId = token.userId then none else some (.noDevice payload.localId)) ::
      writing w token.userId
        { payload with createdAt := old.createdAt, updatedAt := w.clock, userId := token.userId }
        payload.localId
  | use id =>
    owning w token.userId id ++ (w.store.find? id).toList.flatMap fun d =>
      handingOver w token d id ++ discarding w token.userId id .use
  | delete id => owning w token.userId id ++ discarding w token.userId id .delete
  | hide id =>
    owning w token.userId id ++ (w.store.find? id).toList.flatMap fun d =>
      writing w token.userId { d with hidden := true } id
  | «show» id =>
    owning w token.userId id ++ (w.store.find? id).toList.flatMap fun d =>
      writing w token.userId { d with hidden := false } id
  | _ => []

end Operation

/-! ## What failing calls leave behind -/

/-- A call of the store that is to fail leaves the store as it is. -/
theorem StoreService.answer_store_of_fault {α : Type} {s : StoreService} {call : StoreCall}
    {served : Except Failure α × Store} {f : Failure} (hfault : s.fault? call = some f) :
    (s.answer call served).2.store = s.store := by
  have hnext : s.next call ≠ .served := by
    intro hserved
    simp [fault?, hserved] at hfault
  rw [answer_store, if_neg hnext]

namespace World

/-- A write that is to fail changes nothing that there is to see. -/
theorem ledger_after_write_of_fault {w : World} {d : Device} {f : Failure}
    (hfault : w.service.fault? .write = some f) : (w.after (.write d)).ledger = w.ledger :=
  Ledger.ext (StoreService.answer_store_of_fault hfault) rfl rfl rfl

/-- A deletion that is to fail changes nothing that there is to see. -/
theorem ledger_after_remove_of_fault {w : World} {id : String} {f : Failure}
    (hfault : w.service.fault? .remove = some f) : (w.after (.remove id)).ledger = w.ledger :=
  Ledger.ext (StoreService.answer_store_of_fault hfault) rfl rfl rfl

/-- A device that is refused leaves nothing that there is to see. -/
theorem ledger_after_adopt_of_refusal {w : World} {t : Token} {d : Device} {f : Failure}
    (hrefusal : w.refusal? = some f) : (w.after (.adopt t d)).ledger = w.ledger := by
  unfold refusal? at hrefusal
  simp only [after, adoptCall]
  split <;> simp_all [ledger, store]

end World

/-! ## The operations of the desk, one by one -/

namespace Desk

open World (Goes)
open Operation (owning writing discarding handingOver)

variable {token : Token} {w : World} {Left : Failure → World → Prop}

/-- Reading a record that is to be one's own. -/
theorem readOwned_goes (id : String) :
    w.Goes (readOwned token id) (owning w token.userId id) fun _ v => v = w.after (.read id) := by
  refine .answered (w.store.read id) rfl rfl (fun _ => StoreService.answer_eq_some) (fun _ _ => rfl)
    (fun _ _ => rfl) fun _ _ => ?_
  rw [Store.read]
  cases hfind : w.store.find? id with
  | none => exact .of_error rfl
  | some d =>
    by_cases howner : d.userId = token.userId
    · simp only [owned, Device.isOwnedBy, howner, BEq.rfl, if_pos]
      exact Goes.of_ok.checked
    · simp only [owned, Device.isOwnedBy, beq_iff_eq, howner, if_false]
      exact .of_error rfl

/-- What is read as one's own is what is found, and one's own, and nothing but the reading has
happened, which has not failed. -/
theorem of_run_readOwned {id : String} {d : Device} {v : World}
    (hrun : w.run (readOwned token id) = (.finished (.ok d), v)) :
    w.store.find? id = some d ∧ d.userId = token.userId ∧ w.service.fault? .read = none ∧
      v = w.after (.read id) := by
  obtain ⟨q, hq, hdone, -⟩ := World.finished_of_nextCall (c := .read id) rfl hrun
  obtain ⟨found, hanswer, rfl⟩ := Option.map_eq_some_iff.mp hq
  have hfound := StoreService.answer_eq_some hanswer
  cases howned : owned token.userId id found with
  | error f =>
    rw [howned] at hdone
    cases hdone
  | ok e =>
    rw [howned] at hdone
    cases hdone
    obtain ⟨rfl, howner⟩ := owned_ok howned
    cases hfault : w.service.fault? .read with
    | some f =>
      rw [hfault] at hfound
      cases hfound
    | none =>
      rw [hfault] at hfound
      exact ⟨Store.find?_of_read hfound.symm, howner, rfl, rfl⟩

/-- What follows a record that is one's own goes a course of its own from the world after the
reading. -/
theorem owned_goes {α : Type} {f : Device → Procedure (Except Failure α)} {id : String}
    {course : Course}
    (hleft : ∀ f, Course.failure? (owning w token.userId id) = some f → Left f (w.after (.read id)))
    (hnext : ∀ d, w.store.find? id = some d → d.userId = token.userId →
      w.service.fault? .read = none → (w.after (.read id)).Goes (f d) course Left) :
    w.Goes ((readOwned token id).andThen f) (owning w token.userId id ++ course) Left := by
  refine .andThen ((readOwned_goes id).imp ?_) fun d v hrun => ?_
  · rintro f _ hfailure rfl
    exact hleft f hfailure
  · obtain ⟨hfound, howner, hserved, rfl⟩ := of_run_readOwned hrun
    exact hnext d hfound howner hserved

/-- Writing a record and giving notice of it, after others have been read. -/
theorem store_goes {user id : String} {d : Device} {v : World}
    (hfault : v.service.fault? .write = w.service.fault? .write)
    (hleft : ∀ f, v.service.fault? .write = some f → Left f (v.after (.write d))) :
    v.Goes (store user d id) (writing w user d id) Left := by
  rw [writing, ← hfault]
  refine .answered (.ok ()) rfl rfl (fun _ => StoreService.answer_eq_some) (fun _ _ => rfl) hleft
    fun _ _ => ?_
  refine .called rfl ?_
  rintro _ ⟨⟩
  exact .of_ok

/-- Deleting a record and giving notice of it, after other things have been done. -/
theorem discard_goes {user id : String} {change : Change} {v : World}
    (hfault : v.service.fault? .remove = w.service.fault? .remove)
    (hleft : ∀ f, v.service.fault? .remove = some f → Left f (v.after (.remove id))) :
    v.Goes (discard user id change) (discarding w user id change) Left := by
  rw [discarding, ← hfault]
  refine .answered (.ok ()) rfl rfl (fun _ => StoreService.answer_eq_some) (fun _ _ => rfl) hleft
    fun _ _ => ?_
  refine .called rfl ?_
  rintro _ ⟨⟩
  exact .of_ok

/-! ### Without a trace -/

/-- Whether there is to see what there was before. -/
def Untouched (w : World) (_ : Failure) (v : World) : Prop := v.ledger = w.ledger

theorem untouched_read (f : Failure) (id : String) : Untouched w f (w.after (.read id)) :=
  (w.unmoved_read id).ledger

/-- A write that is to fail after the reading of a record. -/
theorem untouched_write {id : String} {d : Device} {f : Failure}
    (hfault : (w.after (.read id)).service.fault? .write = some f) :
    Untouched w f ((w.after (.read id)).after (.write d)) :=
  (World.ledger_after_write_of_fault hfault).trans (w.unmoved_read id).ledger

/-- Listing. -/
theorem list_goes (o : ListOptions) :
    w.Goes (list token o) ((Operation.list o).course w token) (Untouched w) := by
  have hledger : (w.after (.list token.userId o)).ledger = w.ledger :=
    Ledger.ext (w.listCall_store token.userId o) rfl rfl rfl
  refine .answered (w.store.list token.userId o) rfl rfl (fun _ => StoreService.answer_eq_some)
    (fun _ _ => rfl) (fun _ _ => hledger) fun _ _ => ?_
  rw [Store.list]
  cases o.order with
  | error f => exact .of_error hledger
  | ok order => exact .checked .of_ok

/-- Hiding or showing a record. -/
theorem setHidden_goes (hidden : Bool) (id : String) :
    w.Goes (setHidden token hidden id)
      (owning w token.userId id ++ (w.store.find? id).toList.flatMap fun d =>
        writing w token.userId { d with hidden } id) (Untouched w) := by
  refine owned_goes (fun f _ => untouched_read f id) fun d hfound _ _ => ?_
  rw [hfound, Option.toList_some, List.flatMap_singleton]
  exact store_goes (w.fault?_after_read id nofun) fun f => untouched_write

/-- Deleting a record. -/
theorem delete_goes (id : String) :
    w.Goes (delete token id) ((Operation.delete id).course w token) (Untouched w) := by
  refine owned_goes (fun f _ => untouched_read f id) fun d _ _ _ => ?_
  refine discard_goes (w.fault?_after_read id nofun) fun f hfault => ?_
  exact (World.ledger_after_remove_of_fault hfault).trans (w.unmoved_read id).ledger

/-- Writing a record for a payload. -/
theorem set_goes (payload : Device) :
    w.Goes (set token payload) ((Operation.set payload).course w token) (Untouched w) := by
  have hstored (d : Device) (hid : d.localId = payload.localId) :
      (w.after (.read payload.localId)).Goes
        ((store token.userId d d.localId).andThen fun _ => .done (.ok d))
        (writing w token.userId d payload.localId) (Untouched w) := by
    have hwritten : (w.after (.read payload.localId)).Goes (store token.userId d d.localId)
        (writing w token.userId d payload.localId) (Untouched w) := by
      rw [hid]
      exact store_goes (w.fault?_after_read _ nofun) fun f => untouched_write
    have hgoes := hwritten.andThen (f := fun _ => .done (.ok d)) fun _ _ _ => .of_ok
    rwa [List.append_nil] at hgoes
  rw [set, Operation.course]
  by_cases hid : payload.localId = ""
  · rw [if_pos (String.isEmpty_iff.mpr hid), if_pos hid]
    exact .of_error rfl
  · rw [if_neg (mt String.isEmpty_iff.mp hid), if_neg hid]
    refine .checked (.called rfl ?_)
    rintro _ ⟨⟩
    refine .answered (w.store.read payload.localId) rfl rfl
      (fun _ => StoreService.answer_eq_some) ?_ (fun f _ => untouched_read f _) fun _ _ => ?_
    · intro f hfault
      rw [StoreService.eq_diskFull_of_fault? hfault]
      rfl
    · rw [Store.read]
      cases hfind : w.store.find? payload.localId with
      | none => exact hstored _ rfl
      | some old =>
        by_cases howner : old.userId = token.userId
        · simp only [prepared, Device.isOwnedBy, howner, BEq.rfl, if_pos]
          exact .checked (hstored _ rfl)
        · simp only [prepared, Device.isOwnedBy, beq_iff_eq, howner, if_false]
          exact .of_error (untouched_read _ _)

end Desk

/-! ## Stranded devices -/

namespace Operation

/-- Whether an operation strands a device: the record is the user's, the device manager takes the
device over, and the deletion of the record is to fail. -/
structure Strands (op : Operation) (w : World) (token : Token) (id : String) (d : Device) :
    Prop where
  asked : op = .use id
  found : w.store.find? id = some d
  owner : d.userId = token.userId
  read : w.service.fault? .read = none
  takenOver : w.refusal? = none
  kept : w.service.fault? .remove ≠ none

/-- What an operation that fails leaves: what there was before, and with it a stranded device that
was handed over and whose removal was put off, if there is one. -/
structure LeavesNoTrace (op : Operation) (w : World) (token : Token) (f : Failure) (v : World) :
    Prop where
  untouched : (∀ id d, ¬ op.Strands w token id d) → v.ledger = w.ledger
  stranded : ∀ id d, op.Strands w token id d → f = diskFull ∧
    v.ledger = w.ledger.handedOver [⟨token, d⟩] (putsOff w (.use id))

variable {op : Operation} {w v : World} {token : Token} {f : Failure}

/-- An operation that strands nothing is to leave what there was before. -/
theorem LeavesNoTrace.of_untouched (hnone : ∀ id d, ¬ op.Strands w token id d)
    (h : Desk.Untouched w f v) : op.LeavesNoTrace w token f v :=
  ⟨fun _ => h, fun id d hstrands => absurd hstrands (hnone id d)⟩

/-- Operations that hand nothing over strand nothing. -/
theorem not_strands (hop : op.adopts = []) (id : String) (d : Device) :
    ¬ op.Strands w token id d := by
  rintro ⟨rfl, -⟩
  cases hop

/-- Nothing is stranded where reading the record fails or the record is not one's own. -/
theorem not_strands_of_owning {id asked : String} {d : Device}
    (hfailure : Course.failure? (owning w token.userId asked) = some f) :
    ¬ (use asked).Strands w token id d := by
  rintro ⟨hasked, hfound, howner, hread, -⟩
  cases hasked
  simp [Course.failure?, owning, Step.calling, Step.checking, hread, hfound, howner] at hfailure

/-- Nothing is stranded where the device is refused. -/
theorem not_strands_of_refusal {id : String} {d : Device} (hrefusal : w.refusal? = some f) :
    ¬ op.Strands w token id d := by
  rintro ⟨-, -, -, -, htaken, -⟩
  rw [hrefusal] at htaken
  cases htaken

/-- A device is stranded where its record cannot be deleted after it was handed over. -/
theorem Strands.leavesNoTrace {id : String} {d : Device} (h : (use id).Strands w token id d)
    (hledger : v.ledger = w.ledger.handedOver [⟨token, d⟩] (putsOff w (.use id))) :
    (use id).LeavesNoTrace w token diskFull v := by
  refine ⟨fun hnone => absurd h (hnone id d), fun id' d' hstrands => ?_⟩
  cases hstrands.asked
  obtain rfl : d = d' := Option.some.inj (h.found.symm.trans hstrands.found)
  exact ⟨rfl, hledger⟩

end Operation

open World Operation in
/-- Handing over a record. -/
theorem Desk.use_goes {token : Token} {w : World} (id : String) :
    w.Goes (Desk.use token id) ((Operation.use id).course w token)
      ((Operation.use id).LeavesNoTrace w token) := by
  have hread := w.unmoved_read id
  refine owned_goes (fun f hfailure => ?_) fun d hfound howner hserved => ?_
  · exact .of_untouched (fun _ _ => not_strands_of_owning hfailure) hread.ledger
  rw [hfound, Option.toList_some, List.flatMap_singleton]
  refine .answered (.ok ()) rfl rfl (fun _ => adoptCall_eq_some) (fun _ _ => rfl) ?_ ?_
  · intro f hrefusal
    refine .of_untouched (fun _ _ => not_strands_of_refusal hrefusal) ?_
    exact (ledger_after_adopt_of_refusal (w := w.after (.read id)) hrefusal).trans hread.ledger
  · intro htaken hanswer
    refine .called rfl ?_
    rintro _ ⟨⟩
    -- the device is handed over by now, and is stranded if the deletion fails
    have hservice := (service_removeLater ((w.after (.read id)).after (.adopt token d)) id).trans
      (service_after_adopt (w.after (.read id)) token d)
    have hfault : (((w.after (.read id)).after (.adopt token d)).removeLater
        id).service.fault? .remove = w.service.fault? .remove := by
      rw [hservice]
      exact w.fault?_after_read id nofun
    refine discard_goes hfault fun f hfails => ?_
    rw [StoreService.eq_diskFull_of_fault? hfails]
    refine Strands.leavesNoTrace ⟨rfl, hfound, howner, hserved, htaken, ?_⟩ ?_
    · rw [← hfault]
      exact fun hnone => nomatch hfails.symm.trans hnone
    · exact (ledger_after_remove_of_fault hfails).trans (handOver_ledger hread hanswer id)

/-! ## Every operation on one record -/

namespace Operation

variable {op : Operation} {w v : World} {token : Token} {f : Failure}

/-- Every operation on one record goes its course. -/
theorem goes_course (token : Token) (w : World) (hsingle : op.parts = [op]) :
    w.Goes (op.procedure token) (op.course w token) (op.LeavesNoTrace w token) := by
  cases op with
  | list o => exact (Desk.list_goes o).imp fun _ _ _ => .of_untouched (not_strands rfl)
  | read id =>
    refine (Desk.readOwned_goes id).imp ?_
    rintro f _ - rfl
    exact .of_untouched (not_strands rfl) (Desk.untouched_read f id)
  | set payload => exact (Desk.set_goes payload).imp fun _ _ _ => .of_untouched (not_strands rfl)
  | use id => exact Desk.use_goes id
  | delete id => exact (Desk.delete_goes id).imp fun _ _ _ => .of_untouched (not_strands rfl)
  | hide id => exact (Desk.setHidden_goes true id).imp fun _ _ _ => .of_untouched (not_strands rfl)
  | «show» id =>
    exact (Desk.setHidden_goes false id).imp fun _ _ _ => .of_untouched (not_strands rfl)
  | setMany ps | useMany ids | deleteMany ids | hideMany ids | showMany ids =>
    simp [parts, List.map_eq_cons_iff] at hsingle

/-- No record has changed and no notice been given, whether or not a device is stranded. -/
theorem LeavesNoTrace.store_notices (h : op.LeavesNoTrace w token f v) :
    v.store = w.store ∧ v.notices = w.notices := by
  by_cases hstrands : ∃ id d, op.Strands w token id d
  · obtain ⟨id, d, hstrands⟩ := hstrands
    have hledger := (h.stranded id d hstrands).2
    exact ⟨congrArg Ledger.store hledger, congrArg Ledger.notices hledger⟩
  · have hledger := h.untouched fun id d hd => hstrands ⟨id, d, hd⟩
    exact ⟨congrArg Ledger.store hledger, congrArg Ledger.notices hledger⟩

/-- The last call of a course on which nothing fails gives the notice, if there is one to give. -/
theorem getLast?_course {n : Notice} (hn : n ∈ op.notices token)
    (hnone : Course.failure? (op.course w token) = none) :
    (Course.calls (op.course w token)).getLast? = some (.notify n.user n.event) := by
  rw [Course.calls_of_failure?_eq_none hnone]
  cases op with
  | list | read | setMany | useMany | deleteMany | hideMany | showMany => cases hn
  | set payload =>
    obtain rfl := List.mem_singleton.mp hn
    rw [course]
    cases w.store.find? payload.localId <;> rfl
  | delete id =>
    obtain rfl := List.mem_singleton.mp hn
    rfl
  | use id | hide id | «show» id =>
    obtain rfl := List.mem_singleton.mp hn
    rw [course] at hnone ⊢
    cases hfind : w.store.find? id with
    | none => simp [Course.failure?, owning, Step.calling, Step.checking, hfind] at hnone
    | some d => rfl

/-- No operation on one record gives more than one notice. -/
theorem notices_eq_singleton {n : Notice} (hn : n ∈ op.notices token) : op.notices token = [n] := by
  cases op with
  | list | read | setMany | useMany | deleteMany | hideMany | showMany => cases hn
  | set | use | delete | hide | «show» =>
    obtain rfl := List.mem_singleton.mp hn
    rfl

/-- The notice that an operation on one record gives is its last call, made when all else has
been done. -/
theorem exists_notify {a : op.Result} {n : Notice} (hn : n ∈ op.notices token)
    (hrun : w.run (op.procedure token) = (.finished (.ok a), v))
    (hcalls : (w.callsOf token op).map Moment.call = Course.calls (op.course w token))
    (hnone : Course.failure? (op.course w token) = none) (heffect : op.TakesEffect token w v) :
    ∃ before m, w.callsOf token op = before ++ [m] ∧ m.call = .notify n.user n.event ∧
      m.world.store = v.store ∧ m.world.notices = w.notices := by
  have hlast := getLast?_course hn hnone
  rw [← hcalls, List.getLast?_map] at hlast
  obtain ⟨m, hm, hcall⟩ := Option.map_eq_some_iff.mp hlast
  obtain ⟨before, hbefore⟩ := List.getLast?_eq_some_iff.mp hm
  have hv := World.finished_after_last hrun hm
  rw [hcall] at hv
  have hnotices : m.world.notices ++ [n] = w.notices ++ [n] := by
    rw [← notices_eq_singleton hn, ← heffect.notices, hv, notices_eq_singleton hn]
    rfl
  exact ⟨before, m, hbefore, hcall, by rw [hv]; rfl, List.append_cancel_right hnotices⟩

end Operation

/-- **Failed operations leave no trace.** An operation on one record that fails does so with the
failure of the first step of its course that fails, having made the calls up to there and no
others; no record has changed then, no notice been given, and nothing been handed over or put
off. The exception is a device that is stranded: the store has failed to delete the record, and
the device stays handed over and its removal put off, if a wait is configured. An operation that
succeeds has gone all its course and had its full effect, and the notice of it is the last thing
that it does. Where every call is answered it does one or the other. -/
theorem failures_leave_no_trace (w : World) (token : Token) {op : Operation}
    (hsingle : op.parts = [op]) :
    let course : Course := op.course w token
    (∀ f v, w.run (op.procedure token) = (.finished (.error f), v) →
      course.failure? = some f ∧ (w.callsOf token op).map Moment.call = course.calls ∧
      v.store = w.store ∧ v.notices = w.notices ∧
      ((∀ id d, ¬ op.Strands w token id d) →
        v.adopted = w.adopted ∧ v.removals = w.removals) ∧
      ∀ id d, op.Strands w token id d → f = diskFull ∧
        v.adopted = w.adopted ++ [⟨token, d⟩] ∧
        v.removals = w.removals ++ w.wait.toList.map fun wait => ⟨id, w.elapsed + wait⟩) ∧
    (∀ a v, w.run (op.procedure token) = (.finished (.ok a), v) →
      course.failure? = none ∧ (w.callsOf token op).map Moment.call = course.calls ∧
      op.TakesEffect token w v ∧
      ∀ n ∈ op.notices token, ∃ before m, w.callsOf token op = before ++ [m] ∧
        m.call = .notify n.user n.event ∧ m.world.store = v.store ∧
        m.world.notices = w.notices) ∧
    (w.Responds → ∃ r v, w.run (op.procedure token) = (.finished r, v)) := by
  intro course
  have hgoes := op.goes_course token w hsingle
  refine ⟨fun f v hrun => ?_, fun a v hrun => ?_, fun hresponds => ?_⟩
  · obtain ⟨hcalls, -, hfailed⟩ := hgoes _ v hrun
    obtain ⟨hfailure, hleft⟩ := hfailed f rfl
    obtain ⟨hstore, hnotices⟩ := hleft.store_notices
    refine ⟨hfailure, hcalls, hstore, hnotices, fun hnone => ?_, fun id d hstrands => ?_⟩
    · have hledger := hleft.untouched hnone
      exact ⟨congrArg Ledger.adopted hledger, congrArg Ledger.removals hledger⟩
    · obtain ⟨hfull, hledger⟩ := hleft.stranded id d hstrands
      exact ⟨hfull, congrArg Ledger.adopted hledger, congrArg Ledger.removals hledger⟩
  · obtain ⟨hcalls, hsucceeded, -⟩ := hgoes _ v hrun
    have hnone := hsucceeded a rfl
    have heffect := (op.leaves_clean token w hsingle).succeeded a v hrun
    exact ⟨hnone, hcalls, heffect, fun n hn =>
      Operation.exists_notify hn hrun hcalls hnone heffect⟩
  · exact World.run_finishes hresponds.not_hangs

/-- A user's lamp at a desk at which removals wait a minute and no record can be deleted. -/
def stuckDesk : World :=
  let lamp : Device := { Device.named "d1" "lamp" with userId := "alice" }
  { minuteDesk with
    service := { store := Store.empty.insert lamp : StoreService }.turn .remove 0 .failed }

/-- The lamp is stranded when it is used: it is handed over, and there still. -/
theorem lamp_is_stranded :
    let token : Token := ⟨"", "alice", Time.Instant.epoch⟩
    let lamp : Device := { Device.named "d1" "lamp" with userId := "alice" }
    (Operation.use "d1").parts = [.use "d1"] ∧
    ∃ v, stuckDesk.run ((Operation.use "d1").procedure token) =
        (.finished (.error diskFull), v) ∧
      v.store = stuckDesk.store ∧ v.notices = [] ∧ v.adopted = [⟨token, lamp⟩] ∧
      v.removals = [⟨"d1", 60000⟩] := by
  intro token lamp
  have hsingle : (Operation.use "d1").parts = [.use "d1"] := rfl
  have hstrands : (Operation.use "d1").Strands stuckDesk token "d1" lamp :=
    ⟨rfl, rfl, rfl, rfl, rfl, by decide⟩
  have hrun : stuckDesk.run ((Operation.use "d1").procedure token) =
      (.finished (.error diskFull), stuckDesk.perform token (.use "d1")) := rfl
  obtain ⟨hfailed, -, -⟩ := failures_leave_no_trace stuckDesk token hsingle
  obtain ⟨-, -, hstore, hnotices, -, hstranded⟩ := hfailed _ _ hrun
  obtain ⟨-, hadopted, hremovals⟩ := hstranded "d1" lamp hstrands
  exact ⟨hsingle, _, hrun, hstore, hnotices, hadopted, hremovals⟩

end WaitingRoom
