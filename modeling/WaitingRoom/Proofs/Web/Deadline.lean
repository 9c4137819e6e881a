import WaitingRoom.Proofs.Desk.Cuts
import WaitingRoom.Proofs.Web.Admission

/-!
# Requests that take too long

A request of which a call hangs is given up after its time. What it has done up to then stays
done, and that is a beginning of what it asked for: whole parts in their order, and of the part
at which it hangs nothing but the handing over of a record, if it hangs at the removal of that
record.
-/

namespace WaitingRoom

open Web (answer)

variable {token : Token} {op : Operation}

/-- Calls are made for nothing but the resources of the desk. -/
theorem Web.isFor_of_call {check : Validator} {r : Web.Request} {w : World} {m : Moment}
    (hm : m ∈ w.calls (answer check r)) : ∃ resource, r.IsFor resource := by
  unfold answer at hm
  split at hm
  · cases hm
  · rename_i resource hpath
    split at hm
    · cases hm
    · split at hm
      · rename_i hmethod
        have hdesk : resource.isOfDesk = true := by
          cases resource with
          | health | events => cases hm
          | _ => rfl
        exact ⟨resource, hpath, hdesk, by simpa using hmethod⟩
      · cases hm

/-- Calls are made for nothing but the operation that a request of a known caller stands for. -/
theorem Web.asks_of_call {check : Validator} {r : Web.Request} {w : World} {m : Moment}
    (hm : m ∈ w.calls (answer check r)) :
    ∃ resource token op,
      r.IsFor resource ∧ r.IsFrom check token ∧ r.operation? resource = some op := by
  obtain ⟨resource, hfor⟩ := isFor_of_call hm
  rcases r.unknown_or_isFrom check with ⟨why, hunknown⟩ | ⟨token, hfrom⟩
  · rw [calls_answer_of_unknown hfor hunknown] at hm
    cases hm
  · cases hop : r.operation? resource with
    | some op => exact ⟨resource, token, op, hfor, hfrom, hop⟩
    | none =>
      obtain ⟨why, hanswer⟩ := answer_senseless hfor hfrom hop
      rw [hanswer] at hm
      cases hm

/-- A part of an operation that is not its last gives one notice. -/
theorem Operation.notices_of_before {before later : List Operation} {part : Operation}
    (hparts : op.parts = before ++ part :: later) {o : Operation} (ho : o ∈ before) :
    (o.notices token).length = 1 := by
  have hmem : o ∈ op.parts := hparts ▸ List.mem_append_left _ ho
  cases op with
  | list | read | set | use | delete | hide | «show» =>
    have hlength := congrArg List.length hparts
    have hbefore := List.length_pos_of_mem ho
    simp [parts] at hlength
    omega
  | setMany | useMany | deleteMany | hideMany | showMany =>
    obtain ⟨a, -, rfl⟩ := List.mem_map.mp hmem
    rfl

/-- **A request that takes too long leaves a clean beginning.** Wherever a call hangs, the
request is given up with status 408, and what it asked for was cut off at one of its parts. The
parts before that have been carried out one after the other, each with its full effect and one
notice; the calls that were made are theirs and those of the part that hangs, of which the last
is the one that hangs; and what there is to see then is what there was before that part, but
that a record is handed over, and its removal put off, if it hangs at the removal of a record
that was to be handed over. From then on time passes, and removals may fall due. -/
theorem slow_requests_leave_a_beginning (s : Service) (r : Web.Request) {m : Moment}
    (hm : m ∈ s.world.calls (answer s.check r)) (hhangs : m.Hangs) :
    (s.request r).1.status = 408 ∧
    ∃ resource token op,
      r.IsFor resource ∧ r.IsFrom s.check token ∧ r.operation? resource = some op ∧
    ∃ before part later u v,
      op.parts = before ++ part :: later ∧
      CarriedOut token s.world before u ∧
      (∀ o ∈ before, (o.notices token).length = 1) ∧
      s.world.calls (answer s.check r) =
        s.world.callsInTurn token before ++ u.callsOf token part ∧
      (u.callsOf token part).getLast? = some m ∧
      v.ledger = part.ledgerAt token u m.call ∧
      v.notices = s.world.notices ++ before.flatMap (·.notices token) ∧
      (s.request r).2 = ({ s with world := v }.publish).pass Service.requestLimit := by
  obtain ⟨hrun, hlast⟩ := World.run_of_hangs hm hhangs
  have hrequest : s.request r = (.timedOut,
      ({ s with world := m.world.after m.call }.publish).pass Service.requestLimit) := by
    rw [Service.request, hrun]
  obtain ⟨resource, token, op, hfor, hfrom, hop⟩ := Web.asks_of_call hm
  have hcalls := Web.calls_answer hfor hfrom hop s.world
  rw [hcalls] at hm
  obtain ⟨before, part, later, u, hcut⟩ := cutOff_of_hangs hm hhangs
  have hledger := hhangs.ledger_after.trans hcut.left
  refine ⟨by rw [hrequest]; rfl, resource, token, op, hfor, hfrom, hop, before, part, later, u,
    m.world.after m.call, hcut.parts, hcut.carriedOut,
    fun o => Operation.notices_of_before hcut.parts, hcalls.trans hcut.calls, hcut.last, hledger,
    ?_, by rw [hrequest]⟩
  rw [← hcut.carriedOut.notices]
  have hnotices : (part.ledgerAt token u m.call).notices = u.notices := by
    unfold Operation.ledgerAt
    split <;> rfl
  exact (congrArg Ledger.notices hledger).trans hnotices

/-! ## A batch that hangs at its second removal -/

/-- Two records of Alice's in a store whose second removal hangs, and a wait of a minute. -/
def Service.stalling : Service where
  check := Web.takesAlice
  world :=
    { service := StoreService.turn
        { store := (Store.empty.insert { localId := "d1", userId := "alice" }).insert
            { localId := "d2", userId := "alice" } } .remove 1 .hanging
      wait := some 60000 }
  hall := { check := Web.takesAlice }

/-- A request of Alice's to hand over both of them. -/
def Web.useBoth : Web.Request := Web.useAll "alice" "[\"d1\",\"d2\"]"

/-- The first record is handed over and deleted, with notice of it; the second is handed over,
and its removal put off. -/
theorem both_are_handed_over_one_is_deleted :
    (Service.stalling.request Web.useBoth).1.status = 408 ∧
    let v := (Service.stalling.world.run (answer Web.takesAlice Web.useBoth)).2
    v.store.records.map (·.localId) = ["d2"] ∧
    v.adopted.map (·.device.localId) = ["d1", "d2"] ∧
    v.removals = [⟨"d1", 60000⟩, ⟨"d2", 60000⟩] ∧
    v.notices = [⟨"alice", ⟨.use, "d1"⟩⟩] := by
  have hhung : (Service.stalling.world.run (answer Service.stalling.check Web.useBoth)).1 =
      .hung := by
    decide +kernel
  obtain ⟨m, hm, hhangs⟩ := World.exists_hangs hhung
  refine ⟨(slow_requests_leave_a_beginning _ _ hm hhangs).1, ?_⟩
  decide +kernel

end WaitingRoom
