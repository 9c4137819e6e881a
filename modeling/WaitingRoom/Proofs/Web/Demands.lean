import WaitingRoom.Proofs.Desk.Outcomes
import WaitingRoom.Proofs.Desk.Replies
import WaitingRoom.Web.Api

/-!
# What requests demand

The routes of the interface as a table: which operation of the desk a request for a resource
stands for. Whoever is not known is refused before anything else is looked at, a request that
stands for no operation makes no sense, and every other one is answered by running its
operation on behalf of the caller and reporting what came of it.
-/

namespace WaitingRoom

/-- Two procedures in a row, and then a third. -/
theorem Procedure.bind_assoc {α β γ : Type} (p : Procedure α) (f : α → Procedure β)
    (g : β → Procedure γ) : (p.bind f).bind g = p.bind fun a => (f a).bind g := by
  induction p with
  | done => rfl
  | removeLater _ next ih | notify _ _ next ih => exact congrArg _ ih
  | now next ih | read _ next ih | write _ next ih | remove _ next ih | list _ _ next ih
  | adopt _ _ next ih => exact congrArg _ (funext ih)

namespace World

variable {α β : Type}

/-- What is made of a result costs no calls. -/
theorem calls_bind_done (p : Procedure α) (g : α → β) (w : World) :
    w.calls (p.bind fun a => .done (g a)) = w.calls p := by
  rw [calls_bind]
  rcases w.run p with ⟨ending, v⟩
  cases ending <;> exact List.append_nil _

/-- What is made of a result changes nothing in the world. -/
theorem run_bind_done (p : Procedure α) (g : α → β) (w : World) :
    w.run (p.bind fun a => .done (g a)) = match w.run p with
      | (.finished a, v) => (.finished (g a), v)
      | (.hung, v) => (.hung, v) := by
  rw [run_bind]
  rfl

end World

/-- The text that says a reply. -/
def Reply.text : Reply → String
  | listing page => page.toJson.render
  | record d => d.toJson.render
  | records ds => (Json.Value.list (ds.map Device.toJson)).render
  | nothing => ""

namespace Web

open Procedure (done)

/-- Whether a resource is about devices, and so the desk's business. -/
def Resource.isOfDesk : Resource → Bool
  | .health | .events => false
  | _ => true

/-- Whether a request is for a resource of the desk, and by a method that the resource
understands. -/
structure Request.IsFor (r : Request) (resource : Resource) : Prop where
  path : Resource.ofPath? r.path = some resource
  desk : resource.isOfDesk = true
  method : r.method ∈ resource.methods

namespace Request

/-! ## Who asks -/

/-- The caller of a request, by its credential. -/
def caller (check : Validator) (r : Request) : Except AuthFailure Token :=
  match r.credential with
  | .error why => .error why
  | .ok credential => check credential

/-- Why a caller is not known: there is no credential, it is not a text, or it is not
accepted. -/
inductive Unknown (check : Validator) (r : Request) : AuthFailure → Prop
  | missing (hnone : r.header? "authorization" = none) : Unknown check r .missing
  | unreadable {value : List UInt8} (hvalue : r.header? "authorization" = some value)
      (htext : visibleText? value = none) : Unknown check r (.invalid .nonAsciiHeader)
  | refused {value : List UInt8} {credential : String} {why : AuthFailure}
      (hvalue : r.header? "authorization" = some value)
      (htext : visibleText? value = some credential)
      (hcheck : check credential = .error why) : Unknown check r why

/-- Whether the credential of a request is accepted as that of the bearer of a token. -/
def IsFrom (check : Validator) (r : Request) (token : Token) : Prop :=
  ∃ value credential, r.header? "authorization" = some value ∧
    visibleText? value = some credential ∧ check credential = .ok token

variable {check : Validator} {r : Request}

theorem caller_of_unknown {why : AuthFailure} (h : r.Unknown check why) :
    r.caller check = .error why := by
  cases h with
  | missing hnone => simp [caller, credential, hnone]
  | unreadable hvalue htext => simp [caller, credential, hvalue, htext]
  | refused hvalue htext hcheck => simp [caller, credential, hvalue, htext, hcheck]

theorem caller_of_isFrom {token : Token} (h : r.IsFrom check token) :
    r.caller check = .ok token := by
  obtain ⟨value, text, hvalue, htext, hcheck⟩ := h
  simp [caller, credential, hvalue, htext, hcheck]

/-- Every caller is known or not. -/
theorem unknown_or_isFrom (check : Validator) (r : Request) :
    (∃ why, r.Unknown check why) ∨ ∃ token, r.IsFrom check token := by
  cases hvalue : r.header? "authorization" with
  | none => exact .inl ⟨_, .missing hvalue⟩
  | some value =>
    cases htext : visibleText? value with
    | none => exact .inl ⟨_, .unreadable hvalue htext⟩
    | some text =>
      cases hcheck : check text with
      | error why => exact .inl ⟨why, .refused hvalue htext hcheck⟩
      | ok token => exact .inr ⟨token, value, text, hvalue, htext, hcheck⟩

/-! ## What is asked for -/

/-- What the body of a request says, if it can be told. -/
def content? {α : Type} (read : Json.Value → Json.Decoded α) (r : Request) : Option α :=
  (readBody read r).toOption

/-- The operation that a request for a resource stands for, if it makes sense: the ids of a
batch and the records to be written are in the body, the id of a single device is in the path
and has to agree with that of a record to be written, and the options of a listing are in the
query. -/
def operation? (r : Request) : Resource → Option Operation
  | .health | .events => none
  | .devices =>
    if r.method = "PUT" then (r.content? devices).bind fun ds => some (.setMany ds)
    else if r.method = "DELETE" then (r.content? localIds).bind fun ids => some (.deleteMany ids)
    else (listOptions? r.query).bind fun o => some (.list o)
  | .device segment => (Text.decodeSegment? segment).bind fun id =>
    if r.method = "PUT" then
      (r.content? Device.ofJson).bind fun d => if d.localId = id then some (.set d) else none
    else if r.method = "DELETE" then some (.delete id)
    else some (.read id)
  | .usedDevices => (r.content? localIds).bind fun ids => some (.useMany ids)
  | .usedDevice segment => (Text.decodeSegment? segment).bind fun id => some (.use id)
  | .hiddenDevices => (r.content? localIds).bind fun ids => some (.hideMany ids)
  | .hiddenDevice segment => (Text.decodeSegment? segment).bind fun id => some (.hide id)
  | .shownDevices => (r.content? localIds).bind fun ids => some (.showMany ids)
  | .shownDevice segment => (Text.decodeSegment? segment).bind fun id => some (.show id)

/-- Whether a request for a resource makes no sense: the body cannot be told where one is asked
for, nor the query of a listing, nor the id in the path; or the record to be written is not the
one that the path names. -/
def Senseless (r : Request) : Resource → Prop
  | .health | .events => False
  | .devices =>
    if r.method = "PUT" then r.content? devices = none
    else if r.method = "DELETE" then r.content? localIds = none
    else listOptions? r.query = none
  | .device segment => Text.decodeSegment? segment = none ∨
    r.method = "PUT" ∧ ∀ d, r.content? Device.ofJson = some d →
      Text.decodeSegment? segment ≠ some d.localId
  | .usedDevices | .hiddenDevices | .shownDevices => r.content? localIds = none
  | .usedDevice segment | .hiddenDevice segment | .shownDevice segment =>
    Text.decodeSegment? segment = none

/-- What stands for no operation makes no sense. -/
theorem operation?_eq_none {resource : Resource} (hdesk : resource.isOfDesk = true) :
    r.operation? resource = none ↔ r.Senseless resource := by
  have hbind {α : Type} (asked : Option α) (ask : α → Operation) :
      (asked.bind fun a => some (ask a)) = none ↔ asked = none := by
    cases asked <;> simp
  cases resource with
  | health | events => cases hdesk
  | usedDevices | hiddenDevices | shownDevices => exact hbind (r.content? localIds) _
  | usedDevice segment | hiddenDevice segment | shownDevice segment =>
    exact hbind (Text.decodeSegment? segment) _
  | devices =>
    simp only [operation?, Senseless]
    split
    · exact hbind (r.content? devices) _
    · split
      · exact hbind (r.content? localIds) _
      · exact hbind (listOptions? r.query) _
  | device segment =>
    simp only [operation?, Senseless]
    cases Text.decodeSegment? segment with
    | none => simp
    | some id =>
      by_cases hput : r.method = "PUT"
      · cases r.content? Device.ofJson with
        | none => simp [hput]
        | some d => simp [hput, eq_comm]
      · by_cases hdelete : r.method = "DELETE" <;> simp [hput, hdelete]

/-- The response as the client of a request gets it, without a body if only the head of the
response was asked for. -/
def trim (r : Request) (response : Response) : Response :=
  { response with bodiless := r.method == "HEAD" }

/-- What stands in the body of a response to a request: nothing, if only the head of the
response was asked for. -/
def bodyOf (r : Request) (content : String) : String := if r.method = "HEAD" then "" else content

theorem trim_report_body (status : Nat) (message : String) :
    (r.trim (.report status message)).body = r.bodyOf message := by
  by_cases h : r.method = "HEAD" <;> simp [trim, bodyOf, Response.body, Response.report, h]

end Request

/-! ## What is answered -/

/-- Whether a response to a request reports what came of an operation: a success with its
reply, or a failure in its words. -/
def Response.Reports (response : Response) (r : Request) (op : Operation) :
    Except Failure op.Result → Prop
  | .ok a => response.status = 200 ∧ response.body = r.bodyOf (op.reply a).text
  | .error f => response.status = f.webStatus ∧ response.body = r.bodyOf f.message

/-- How a request of a known caller is served: it stands for no operation and is told that it
makes no sense, or its operation is run and what came of it is reported. -/
inductive Serves (r : Request) (token : Token) : Option Operation → Procedure Response → Prop
  | senseless (why : String) : Serves r token none (done (.bad why))
  | reported (op : Operation) (write : Except Failure op.Result → Response)
      (hwrite : ∀ result, (r.trim (write result)).Reports r op result) :
      Serves r token (some op) ((op.procedure token).bind fun result => done (write result))

variable {check : Validator} {r : Request} {token : Token} {resource : Resource}

theorem serves_withBody {α : Type} {read : Json.Value → Json.Decoded α}
    {ask : α → Option Operation} {serve : α → Procedure Response}
    (h : ∀ a, Serves r token (ask a) (serve a)) :
    Serves r token ((r.content? read).bind ask) (withBody read r serve) := by
  unfold Request.content? withBody
  cases readBody read r with
  | error why => exact .senseless why
  | ok a => exact h a

theorem serves_withDevice {segment : String} {ask : String → Option Operation}
    {serve : String → Procedure Response} (h : ∀ id, Serves r token (ask id) (serve id)) :
    Serves r token ((Text.decodeSegment? segment).bind ask) (withDevice segment serve) := by
  unfold withDevice
  cases Text.decodeSegment? segment with
  | none => exact .senseless _
  | some id => exact h id

/-- The response that tells a result. -/
def Response.ofResult {α : Type} (write : α → Response) : Except Failure α → Response
  | .ok a => write a
  | .error f => .failed f

/-- The result of an operation is reported by a reply that says it, and by any reply to a
request for the head of one. -/
theorem serves_reply (op : Operation) {write : op.Result → Response}
    (hstatus : ∀ a, (write a).status = 200)
    (hbody : ∀ a, (r.trim (write a)).body = r.bodyOf (op.reply a).text) :
    Serves r token (some op) (reply write (op.procedure token)) := by
  have hreply : reply write (op.procedure token) =
      (op.procedure token).bind fun result => done (.ofResult write result) := by
    unfold reply
    congr 1
    funext result
    cases result <;> rfl
  rw [hreply]
  apply Serves.reported
  intro result
  cases result with
  | ok a => exact ⟨hstatus a, hbody a⟩
  | error f => exact ⟨rfl, Request.trim_report_body ..⟩

theorem trim_value_body (v : Json.Value) : (r.trim (.value v)).body = r.bodyOf v.render := by
  by_cases h : r.method = "HEAD" <;>
    simp [Request.trim, Request.bodyOf, Response.body, Response.value, h]

theorem trim_ok_body : (r.trim .ok).body = r.bodyOf "" := by
  by_cases h : r.method = "HEAD" <;>
    simp [Request.trim, Request.bodyOf, Response.body, Response.ok, h]

/-- An operation that has nothing to say is confirmed. -/
theorem serves_confirm {op : Operation} (hreply : ∀ a, op.reply a = .nothing) :
    Serves r token (some op) (reply (fun _ => .ok) (op.procedure token)) := by
  apply serves_reply
  · exact fun _ => rfl
  · intro a
    rw [hreply a]
    exact trim_ok_body

/-- The response that tells of a result no more than its status. -/
def Response.ofStatus {α : Type} : Except Failure α → Response
  | .ok _ => .ok
  | .error f => { status := f.webStatus }

/-- Of a record whose head is asked for the status alone is told. -/
theorem serves_replyStatus (hhead : r.method = "HEAD") (id : String) :
    Serves r token (some (.read id)) (replyStatus (Desk.read token id)) := by
  have hreply : replyStatus (Desk.read token id) =
      (Desk.read token id).bind fun result => done (.ofStatus result) := by
    unfold replyStatus
    congr 1
    funext result
    cases result <;> rfl
  rw [hreply]
  apply Serves.reported (.read id)
  intro result
  cases result <;>
    exact ⟨rfl, by simp [Request.trim, Request.bodyOf, Response.body, hhead]⟩

theorem withCaller_of_error {why : AuthFailure} (hcaller : r.caller check = .error why)
    (serve : Token → Procedure Response) : withCaller check r serve = done (.unauthorized why) := by
  unfold withCaller
  unfold Request.caller at hcaller
  split <;> simp_all

theorem withCaller_of_ok (hcaller : r.caller check = .ok token)
    (serve : Token → Procedure Response) : withCaller check r serve = serve token := by
  unfold withCaller
  unfold Request.caller at hcaller
  split <;> simp_all

/-- A request whose caller is not known is refused, whatever it is for. -/
theorem serve_of_error {why : AuthFailure} (hdesk : resource.isOfDesk = true)
    (hcaller : r.caller check = .error why) :
    serve check r resource = done (.unauthorized why) := by
  have hrefused := withCaller_of_error hcaller
  cases resource with
  | health | events => cases hdesk
  | devices | device => simp only [serve, hrefused, ite_self]
  | usedDevices | usedDevice | hiddenDevices | hiddenDevice | shownDevices | shownDevice =>
    exact hrefused _

/-- A request whose caller is known is served for what it stands for. -/
theorem serve_of_ok (hdesk : resource.isOfDesk = true) (hcaller : r.caller check = .ok token) :
    Serves r token (r.operation? resource) (serve check r resource) := by
  have hknown := withCaller_of_ok hcaller
  cases resource with
  | health | events => cases hdesk
  | usedDevices | hiddenDevices | shownDevices =>
    simp only [serve, hknown, Request.operation?]
    exact serves_withBody fun ids => serves_confirm fun _ => rfl
  | usedDevice | hiddenDevice | shownDevice =>
    simp only [serve, hknown, Request.operation?]
    exact serves_withDevice fun id => serves_confirm fun _ => rfl
  | devices =>
    simp only [serve, hknown, beq_iff_eq, Request.operation?]
    split
    · refine serves_withBody fun ds => serves_reply (.setMany ds) ?_ ?_
      · exact fun _ => rfl
      · exact fun ds => trim_value_body _
    · split
      · exact serves_withBody fun ids => serves_confirm fun _ => rfl
      · unfold serveList
        cases listOptions? r.query with
        | none => exact .senseless _
        | some o =>
          refine serves_reply (.list o) ?_ ?_
          · exact fun _ => rfl
          · exact fun page => trim_value_body _
  | device segment =>
    have hrecord (op : Operation) (write : op.Result → Device)
        (hwrite : ∀ a, (op.reply a).text = (write a).toJson.render) :
        Serves r token (some op) (reply (fun a => .value (write a).toJson) (op.procedure token)) :=
      serves_reply op (fun _ => rfl) fun a => (trim_value_body _).trans (by rw [hwrite])
    simp only [serve, hknown, beq_iff_eq, Request.operation?]
    split
    · refine serves_withDevice fun id => serves_withBody fun d => ?_
      by_cases hid : d.localId = id
      · rw [if_pos hid, servePut, if_neg (by simp [hid])]
        exact hrecord (.set d) (fun d => d) fun _ => rfl
      · rw [if_neg hid, servePut, if_pos (by simp [hid])]
        exact .senseless _
    · split
      · exact serves_withDevice fun id => serves_confirm fun _ => rfl
      · split
        · rename_i hhead
          exact serves_withDevice fun id => serves_replyStatus hhead id
        · exact serves_withDevice fun id => hrecord (.read id) (fun d => d) fun _ => rfl

/-- The answer to a request for a resource of the desk is what it is served, trimmed. -/
theorem answer_eq (hfor : r.IsFor resource) :
    answer check r = (serve check r resource).bind fun response => done (r.trim response) := by
  obtain ⟨hpath, -, hmethod⟩ := hfor
  have hoptions : r.method ≠ "OPTIONS" := by
    rintro h
    rw [h] at hmethod
    cases resource <;> simp [Resource.methods] at hmethod
  simp [answer, hpath, hoptions, hmethod, Request.trim]

/-- Whoever is not known is refused. -/
theorem answer_of_unknown {why : AuthFailure} (hfor : r.IsFor resource)
    (hunknown : r.Unknown check why) : answer check r = done (r.trim (.unauthorized why)) := by
  rw [answer_eq hfor, serve_of_error hfor.desk (Request.caller_of_unknown hunknown)]
  rfl

/-- A request that stands for no operation is told that it makes no sense. -/
theorem answer_senseless (hfor : r.IsFor resource) (hfrom : r.IsFrom check token)
    (hnone : r.operation? resource = none) : ∃ why, answer check r = done (r.trim (.bad why)) := by
  have hserves := serve_of_ok hfor.desk (Request.caller_of_isFrom hfrom)
  rw [hnone] at hserves
  rw [answer_eq hfor]
  generalize serve check r resource = p at hserves
  cases hserves with
  | senseless why => exact ⟨why, rfl⟩

/-- A request that stands for an operation is answered with what comes of it. -/
theorem answer_reports {op : Operation} (hfor : r.IsFor resource) (hfrom : r.IsFrom check token)
    (hop : r.operation? resource = some op) :
    ∃ write : Except Failure op.Result → Response, (∀ result, (write result).Reports r op result) ∧
      answer check r = (op.procedure token).bind fun result => done (write result) := by
  have hserves := serve_of_ok hfor.desk (Request.caller_of_isFrom hfrom)
  rw [hop] at hserves
  rw [answer_eq hfor]
  generalize serve check r resource = p at hserves
  cases hserves with
  | reported _ write hwrite => exact ⟨_, hwrite, Procedure.bind_assoc ..⟩

end Web

end WaitingRoom
