import WaitingRoom.Proofs.Web.Demands
import WaitingRoom.Service

/-!
# Admission

The desk does not hear of a request before its caller is known. Whatever else is wrong with
the request, a stranger is told no more than why the credential is not accepted, and nothing
happens. Whoever is known has the desk act in the name that the credential stands for, and
nobody asks whether the token has run out.
-/

namespace WaitingRoom

namespace Web

variable {check : Validator} {r : Request} {token : Token} {resource : Resource}

/-- The answer to a stranger is made without a call. -/
theorem calls_answer_of_unknown {why : AuthFailure} (hfor : r.IsFor resource)
    (hunknown : r.Unknown check why) (w : World) : w.calls (answer check r) = [] := by
  rw [answer_of_unknown hfor hunknown]
  rfl

/-- The calls that are made for a request are those of the operation that it stands for. -/
theorem calls_answer {op : Operation} (hfor : r.IsFor resource) (hfrom : r.IsFrom check token)
    (hop : r.operation? resource = some op) (w : World) :
    w.calls (answer check r) = w.callsOf token op := by
  obtain ⟨write, -, hanswer⟩ := answer_reports hfor hfrom hop
  rw [hanswer]
  exact World.calls_bind_done ..

/-- A request runs as far as the operation does that it stands for, and what the operation
comes to is reported. -/
theorem run_answer {op : Operation} (hfor : r.IsFor resource) (hfrom : r.IsFrom check token)
    (hop : r.operation? resource = some op) :
    ∃ write : Except Failure op.Result → Response, (∀ result, (write result).Reports r op result) ∧
      ∀ w : World, w.run (answer check r) = match w.run (op.procedure token) with
        | (.finished result, v) => (.finished (write result), v)
        | (.hung, v) => (.hung, v) := by
  obtain ⟨write, hwrite, hanswer⟩ := answer_reports hfor hfrom hop
  refine ⟨write, hwrite, fun w => ?_⟩
  rw [hanswer, World.run_bind_done]
  rcases w.run (op.procedure token) with ⟨ending, v⟩
  cases ending <;> rfl

/-- A request leaves the world as the operation does that it stands for. -/
theorem run_answer_world {op : Operation} (hfor : r.IsFor resource)
    (hfrom : r.IsFrom check token) (hop : r.operation? resource = some op) (w : World) :
    (w.run (answer check r)).2 = w.perform token op := by
  obtain ⟨write, -, hrun⟩ := run_answer hfor hfrom hop
  rw [hrun, World.perform]
  rcases w.run (op.procedure token) with ⟨ending, v⟩
  cases ending <;> rfl

end Web

open Web (answer)

/-- A request whose answer needs no calls is answered so, and the world stays as it is. -/
theorem Service.request_of_done {s : Service} {r : Web.Request} {response : Web.Response}
    (hanswer : answer s.check r = .done response) :
    (s.request r).1 = response ∧ s.world.calls (answer s.check r) = [] ∧
      (s.world.run (answer s.check r)).2 = s.world := by
  rw [Service.request, hanswer]
  exact ⟨rfl, rfl, rfl⟩

/-- **Admission comes first.** A request for a resource of the desk, whatever else it says,
whose credential is missing, unreadable or not accepted is answered with status 401 and with
why that is so, if it asked for a body; no call is made and the world stays as it is. Any other
request stands for an operation unless it makes no sense, and then the desk makes the calls of
that operation on behalf of the user whom the credential names, and leaves the world as the
operation does, whenever the token runs out. -/
theorem strangers_are_turned_away_first (s : Service) (r : Web.Request)
    {resource : Web.Resource} (hfor : r.IsFor resource) :
    (∀ why, r.Unknown s.check why →
      (s.request r).1.status = 401 ∧ (s.request r).1.body = r.bodyOf why.message ∧
      s.world.calls (answer s.check r) = [] ∧
      (s.world.run (answer s.check r)).2 = s.world) ∧
    (∀ token, r.IsFrom s.check token → ¬ r.Senseless resource →
      ∃ op, r.operation? resource = some op ∧
        s.world.calls (answer s.check r) = s.world.callsOf token op ∧
        (s.world.run (answer s.check r)).2 = s.world.perform token op) := by
  constructor
  · intro why hunknown
    obtain ⟨hresponse, hcalls, hworld⟩ :=
      Service.request_of_done (Web.answer_of_unknown hfor hunknown)
    rw [hresponse]
    exact ⟨rfl, Web.Request.trim_report_body .., hcalls, hworld⟩
  · intro token hfrom hsense
    rw [← Web.Request.operation?_eq_none hfor.desk] at hsense
    obtain ⟨op, hop⟩ := Option.ne_none_iff_exists'.mp hsense
    exact ⟨op, hop, Web.calls_answer hfor hfrom hop s.world,
      Web.run_answer_world hfor hfrom hop s.world⟩

/-! ## A stranger and an owner -/

namespace Web

/-- The bytes of a header value in ASCII. -/
def headerBytes (s : String) : List UInt8 := s.toList.map fun c => UInt8.ofNat c.toNat

/-- Whoever says `alice` is taken for Alice, by a token that ran out at once. -/
def takesAlice : Validator := fun credential =>
  if credential = "alice" then .ok ⟨"Bearer alice", "alice", Time.Instant.epoch⟩
  else .error (.invalid .invalidToken)

/-- A request to hand over all devices of which the body says. -/
def useAll (credential body : String) : Request where
  method := "POST"
  path := "/used/devices"
  headers := [("Authorization", headerBytes credential),
    ("Content-Type", headerBytes "application/json")]
  body := headerBytes body

end Web

/-- Somebody whose credential is refused is told so and not that the body makes no sense, and
Alice hands a device over although her token has run out. -/
theorem alice_is_admitted_by_an_old_token :
    let s : Service := { check := Web.takesAlice, hall := { check := Web.takesAlice } }
    let token : Token := ⟨"Bearer alice", "alice", Time.Instant.epoch⟩
    (s.request (Web.useAll "bob" "[")).1.status = 401 ∧
    (s.request (Web.useAll "bob" "[")).1.body = "invalid auth token: InvalidToken" ∧
    token.isExpired s.world.clock = true ∧
    s.world.calls (answer s.check (Web.useAll "alice" "[\"d1\"]")) =
      s.world.callsOf token (.useMany ["d1"]) := by
  intro s token
  have hpath : Web.Resource.ofPath? "/used/devices" = some .usedDevices := by decide
  have hfor (credential body : String) : (Web.useAll credential body).IsFor .usedDevices :=
    ⟨hpath, rfl, List.mem_singleton.mpr rfl⟩
  have hheader : (Web.useAll "bob" "[").header? "authorization" = some (Web.headerBytes "bob") := by
    decide
  have htext : Web.Request.visibleText? (Web.headerBytes "bob") = some "bob" := by decide
  have hbob : (Web.useAll "bob" "[").Unknown s.check (.invalid .invalidToken) :=
    .refused hheader htext rfl
  have halice : (Web.useAll "alice" "[\"d1\"]").IsFrom s.check token :=
    ⟨Web.headerBytes "alice", "alice", by decide, by decide, rfl⟩
  have hbody : (Web.useAll "alice" "[\"d1\"]").content? Web.localIds = some ["d1"] := by
    decide +kernel
  have hsense : ¬ (Web.useAll "alice" "[\"d1\"]").Senseless .usedDevices := by
    simp [Web.Request.Senseless, hbody]
  have hstranger := (strangers_are_turned_away_first s _ (hfor "bob" "[")).1 _ hbob
  obtain ⟨op, hop, hcalls, -⟩ :=
    (strangers_are_turned_away_first s _ (hfor "alice" "[\"d1\"]")).2 _ halice hsense
  obtain rfl : Operation.useMany ["d1"] = op := by
    rw [Web.Request.operation?, hbody] at hop
    exact Option.some.inj hop
  exact ⟨hstranger.1, hstranger.2.1.trans (by decide), by decide, hcalls⟩

end WaitingRoom
