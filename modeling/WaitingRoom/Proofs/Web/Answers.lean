import WaitingRoom.Proofs.Desk.Candor
import WaitingRoom.Proofs.Desk.Hanging
import WaitingRoom.Proofs.Json.Listings
import WaitingRoom.Proofs.Web.Admission

/-!
# Answers mirror operations

Where no call hangs, the status of an answer is that of a success if and only if the operation
that the request stands for was run and succeeded, and the body of a success is read as what the
operation has come to. A failure is answered with the status that it stands for, as far as there
is such a status, and what makes no sense is answered without a call. To ask for the head of a
record is to ask for the record.
-/

namespace WaitingRoom

open Web (answer)

/-- Whether a text says a reply. It is JSON and read to its end as the record or the records, in
their order, or as a record that holds the page. Where there is nothing to say it is empty. -/
def Reply.IsSaidBy (text : String) : Reply → Prop
  | listing page => ∃ members, Json.readText text = ⟨.record members, true⟩ ∧ page.IsHeldBy members
  | record d => Device.parse text = .ok d
  | records ds => Json.decodeText Web.devices text = .ok ds
  | nothing => text = ""

/-- The text that a reply is written as says it. -/
theorem Reply.isSaidBy_text (reply : Reply) : reply.IsSaidBy reply.text := by
  cases reply with
  | listing page => exact page.exists_readText_render
  | record d => exact d.parse_render
  | records ds => exact Web.decodeText_devicesBody ds
  | nothing => rfl

/-- The status a web client sees is the one that a failure stands for, if there is such a
status. -/
theorem Failure.webStatus_eq (f : Failure) :
    f.webStatus = if 100 ≤ f.status ∧ f.status ≤ 999 then f.status else 500 := by
  simp [webStatus]

/-- A web client sees that a failure is one. -/
theorem Failure.webStatus_of_shows {f : Failure} (h : 300 ≤ f.status) : 300 ≤ f.webStatus := by
  rw [webStatus_eq]
  split
  · exact h
  · decide

/-- Reading a record changes nothing that there is to see. -/
theorem Desk.run_read_ledger (w : World) (token : Token) (id : String) :
    (w.run (Desk.read token id)).2.ledger = w.ledger := by
  have hworld : (w.run (Desk.read token id)).2 = (w.readCall id).2 := by
    rw [Desk.read, Desk.readOwned, World.run]
    rcases w.readCall id with ⟨_ | found, v⟩ <;> rfl
  rw [hworld]
  exact Ledger.ext (w.readCall_store id) rfl rfl rfl

namespace Service

variable {s : Service} {r : Web.Request} {token : Token} {resource : Web.Resource}

/-- A request of which no call hangs is answered with what its operation has come to. -/
theorem request_reports {op : Operation} (hfor : r.IsFor resource)
    (hfrom : r.IsFrom s.check token)
    (hanswered : ∀ m ∈ s.world.calls (answer s.check r), ¬ m.Hangs)
    (hop : r.operation? resource = some op) :
    ∃ result, s.world.run (op.procedure token) =
        (.finished result, (s.world.run (answer s.check r)).2) ∧
      (s.request r).1.Reports r op result := by
  obtain ⟨write, hwrite, hrun⟩ := Web.run_answer hfor hfrom hop
  have hrun := hrun s.world
  obtain ⟨response, v, hfinished⟩ := World.run_finishes hanswered
  rw [request, hfinished]
  rw [hfinished] at hrun
  rcases hop : s.world.run (op.procedure token) with ⟨ending, u⟩
  rw [hop] at hrun
  cases ending with
  | hung => cases hrun
  | finished result =>
    cases hrun
    exact ⟨result, rfl, hwrite result⟩

/-- What makes no sense is answered so without a call. -/
theorem request_of_senseless (hfor : r.IsFor resource) (hfrom : r.IsFrom s.check token)
    (hsenseless : r.Senseless resource) :
    (s.request r).1.status = 400 ∧ s.world.calls (answer s.check r) = [] ∧
      (s.world.run (answer s.check r)).2 = s.world := by
  have hnone := (Web.Request.operation?_eq_none hfor.desk).mpr hsenseless
  obtain ⟨why, hanswer⟩ := Web.answer_senseless hfor hfrom hnone
  obtain ⟨hresponse, hcalls, hworld⟩ := request_of_done hanswer
  exact ⟨by rw [hresponse]; rfl, hcalls, hworld⟩

end Service

/-- A response that reports the result of an operation has the status of a success if and only
if the result is one, where failures show. -/
theorem Web.Response.Reports.isSuccess_iff {response : Web.Response} {r : Web.Request}
    {op : Operation} {result : Except Failure op.Result} (h : response.Reports r op result)
    (hcandid : IsCandid result) :
    (200 ≤ response.status ∧ response.status < 300) ↔ ∃ a, result = .ok a := by
  cases result with
  | ok a =>
    have hstatus : response.status = 200 := h.1
    exact ⟨fun _ => ⟨a, rfl⟩, fun _ => by omega⟩
  | error f =>
    have hstatus : response.status = f.webStatus := h.1
    have hshows := Failure.webStatus_of_shows (hcandid f rfl)
    refine ⟨fun _ => by omega, ?_⟩
    rintro ⟨a, ⟨⟩⟩

/-- To ask for the head of a record has the status of asking for the record, and changes
nothing that there is to see. -/
theorem Service.request_head {s : Service} {r : Web.Request} {token : Token} {segment : String}
    (hfor : r.IsFor (.device segment)) (hfrom : r.IsFrom s.check token)
    (hanswered : ∀ m ∈ s.world.calls (answer s.check r), ¬ m.Hangs) (hhead : r.method = "HEAD") :
    (s.request r).1.status = (s.request { r with method := "GET" }).1.status ∧
      (s.world.run (answer s.check r)).2.ledger = s.world.ledger := by
  let get : Web.Request := { r with method := "GET" }
  have hforGet : get.IsFor (.device segment) :=
    ⟨hfor.path, rfl, by simp [get, Web.Resource.methods]⟩
  have hfromGet : get.IsFrom s.check token := hfrom
  have hasks : get.operation? (.device segment) = r.operation? (.device segment) := by
    simp [get, Web.Request.operation?, hhead]
  cases hid : Text.decodeSegment? segment with
  | none =>
    obtain ⟨hstatus, -, hworld⟩ := request_of_senseless hfor hfrom (.inl hid)
    have hstatusGet := (request_of_senseless hforGet hfromGet (.inl hid)).1
    exact ⟨hstatus.trans hstatusGet.symm, by rw [hworld]⟩
  | some id =>
    have hop : r.operation? (.device segment) = some (.read id) := by
      simp [Web.Request.operation?, hhead, hid]
    have hopGet := hasks.trans hop
    have hansweredGet : ∀ m ∈ s.world.calls (answer s.check get), ¬ m.Hangs := by
      rw [Web.calls_answer hforGet hfromGet hopGet]
      rwa [Web.calls_answer hfor hfrom hop] at hanswered
    obtain ⟨result, hrun, hreport⟩ := request_reports hfor hfrom hanswered hop
    obtain ⟨resultGet, hrunGet, hreportGet⟩ :=
      request_reports hforGet hfromGet hansweredGet hopGet
    obtain rfl : result = resultGet :=
      Ending.finished.inj (congrArg Prod.fst (hrun.symm.trans hrunGet))
    refine ⟨?_, ?_⟩
    · cases result with
      | ok d => exact hreport.1.trans hreportGet.1.symm
      | error f => exact hreport.1.trans hreportGet.1.symm
    · rw [Web.run_answer_world hfor hfrom hop]
      exact Desk.run_read_ledger s.world token id

/-- A record of Alice's, and a device manager that refuses with a number that is no status. -/
def Service.refusing : Service where
  check := Web.takesAlice
  world :=
    { service := { store := Store.empty.insert { localId := "d1", userId := "alice" } }
      manager := fun _ => .declined (.refused 1000 "gone") }
  hall := { check := Web.takesAlice }

/-- A request of Alice's to hand over one device. -/
def Web.useOne : Web.Request where
  method := "POST"
  path := "/used/devices/d1"
  headers := [("Authorization", Web.headerBytes "alice")]

end WaitingRoom
