import WaitingRoom.Proofs.Backend.Agreement
import WaitingRoom.Proofs.Desk.Hanging

/-!
# Failures show

A failure stands for a status, and the one that the device manager gives is passed on as it
is. As long as the device manager refuses with a status that is a refusal, no failure of an
operation has the status of a success: the store's failures do not, and neither do those of
the desk itself.
-/

namespace WaitingRoom

variable {α β : Type}

/-- Whether a result shows by its status that it is a failure, if it is one. -/
def IsCandid (r : Except Failure α) : Prop := ∀ f, r = .error f → 300 ≤ f.status

theorem isCandid_ok (a : α) : IsCandid (.ok a) := fun _ h => nomatch h

theorem isCandid_error {f : Failure} (h : 300 ≤ f.status) :
    IsCandid (.error f : Except Failure α) := by
  rintro _ ⟨⟩
  exact h

namespace Procedure

/-- Whether the result of a procedure is candid if all the answers are that it gets. -/
def IsCandid : Procedure (Except Failure α) → Prop
  | .done r => WaitingRoom.IsCandid r
  | .now next => ∀ t, (next t).IsCandid
  | .read _ next => ∀ r, WaitingRoom.IsCandid r → (next r).IsCandid
  | .write _ next => ∀ r, WaitingRoom.IsCandid r → (next r).IsCandid
  | .remove _ next => ∀ r, WaitingRoom.IsCandid r → (next r).IsCandid
  | .list _ _ next => ∀ r, WaitingRoom.IsCandid r → (next r).IsCandid
  | .adopt _ _ next => ∀ r, WaitingRoom.IsCandid r → (next r).IsCandid
  | .removeLater _ next => next.IsCandid
  | .notify _ _ next => next.IsCandid

/-- Two procedures of which the second follows the success of the first. -/
theorem IsCandid.andThen {p : Procedure (Except Failure α)}
    {f : α → Procedure (Except Failure β)} (hp : p.IsCandid) (hf : ∀ a, (f a).IsCandid) :
    (p.andThen f).IsCandid := by
  induction p with
  | done r =>
    cases r with
    | ok a => exact hf a
    | error e => exact isCandid_error (hp e rfl)
  | now next ih => exact fun t => ih t (hp t)
  | read _ next ih | write _ next ih | remove _ next ih | list _ _ next ih | adopt _ _ next ih =>
    exact fun r hr => ih r (hp r hr)
  | removeLater _ next ih | notify _ _ next ih => exact ih hp

/-- A batch is candid if it is so for each of its items. -/
theorem IsCandid.each {p : α → Procedure (Except Failure β)} (hp : ∀ a, (p a).IsCandid)
    (items : List α) : (Procedure.each p items).IsCandid := by
  induction items with
  | nil => exact isCandid_ok []
  | cons a rest ih => exact (hp a).andThen fun b => ih.andThen fun bs => isCandid_ok (b :: bs)

end Procedure

/-! ## The desk -/

namespace Desk

variable {token : Token}

/-- Of a record that is somebody else's it is said that it is out of reach. -/
theorem owned_isCandid {user id : String} {found : Except Failure Device}
    (hfound : IsCandid found) : IsCandid (owned user id found) := by
  cases found with
  | error f => exact isCandid_error (hfound f rfl)
  | ok d =>
    rw [owned]
    split
    · exact isCandid_ok d
    · exact isCandid_error (by simp [Failure.foreignDevice, Failure.status])

theorem readOwned_isCandid (id : String) : (readOwned token id).IsCandid :=
  fun _ hfound => owned_isCandid hfound

theorem store_isCandid (user : String) (d : Device) (id : String) :
    (store user d id).IsCandid := by
  intro r hr
  cases r with
  | ok _ => exact isCandid_ok ()
  | error f => exact isCandid_error (hr f rfl)

theorem discard_isCandid (user id : String) (change : Change) :
    (discard user id change).IsCandid := by
  intro r hr
  cases r with
  | ok _ => exact isCandid_ok ()
  | error f => exact isCandid_error (hr f rfl)

theorem prepared_isCandid {now : Time.Instant} {payload : Device}
    {found : Except Failure Device} (hfound : IsCandid found) :
    IsCandid (prepared token now payload found) := by
  unfold prepared
  split
  · split
    · exact isCandid_ok _
    · exact isCandid_error (by simp [Failure.noDevice, Failure.status])
  · exact isCandid_ok _
  · rename_i f _
    exact isCandid_error (hfound f rfl)

theorem set_isCandid (payload : Device) : (set token payload).IsCandid := by
  unfold set
  split
  · exact isCandid_error (by simp [Failure.status])
  · intro now found hfound
    have hprepared : IsCandid (prepared token now payload found) := prepared_isCandid hfound
    cases hanswer : prepared token now payload found with
    | error f =>
      simp only [hanswer]
      exact isCandid_error (hprepared f hanswer)
    | ok d =>
      simp only [hanswer]
      exact (store_isCandid token.userId d d.localId).andThen fun _ => isCandid_ok d

theorem use_isCandid (id : String) : (use token id).IsCandid := by
  apply (readOwned_isCandid id).andThen
  intro d r hr
  cases r with
  | ok _ => exact discard_isCandid token.userId id .use
  | error f => exact isCandid_error (hr f rfl)

theorem delete_isCandid (id : String) : (delete token id).IsCandid :=
  (readOwned_isCandid id).andThen fun _ => discard_isCandid token.userId id .delete

theorem setHidden_isCandid (hidden : Bool) (id : String) :
    (setHidden token hidden id).IsCandid :=
  (readOwned_isCandid id).andThen fun d => store_isCandid token.userId { d with hidden } id

theorem list_isCandid (o : ListOptions) : (list token o).IsCandid := by
  intro r hr
  cases r with
  | ok found => exact isCandid_ok _
  | error f => exact isCandid_error (hr f rfl)

theorem forget_isCandid {p : Procedure (Except Failure (List α))} (hp : p.IsCandid) :
    (forget p).IsCandid :=
  hp.andThen fun _ => isCandid_ok ()

end Desk

/-- The desk is candid, whatever a user asks for. -/
theorem Operation.isCandid (token : Token) (op : Operation) : (op.procedure token).IsCandid := by
  cases op with
  | list o => exact Desk.list_isCandid o
  | read id => exact Desk.readOwned_isCandid id
  | set payload => exact Desk.set_isCandid payload
  | use id => exact Desk.use_isCandid id
  | delete id => exact Desk.delete_isCandid id
  | hide id => exact Desk.setHidden_isCandid true id
  | «show» id => exact Desk.setHidden_isCandid false id
  | setMany payloads => exact .each Desk.set_isCandid payloads
  | useMany ids => exact Desk.forget_isCandid (.each Desk.use_isCandid ids)
  | deleteMany ids => exact Desk.forget_isCandid (.each Desk.delete_isCandid ids)
  | hideMany ids => exact Desk.forget_isCandid (.each (Desk.setHidden_isCandid true) ids)
  | showMany ids => exact Desk.forget_isCandid (.each (Desk.setHidden_isCandid false) ids)

/-! ## The store and the device manager -/

/-- A call of the store is candid if the store's own answer is. -/
theorem StoreService.answer_isCandid {s : StoreService} {call : StoreCall}
    {served : Except Failure α × Store} {r : Except Failure α} (hserved : IsCandid served.1)
    (hanswer : (s.answer call served).1 = some r) : IsCandid r := by
  rcases StoreService.answer_result hanswer with rfl | rfl
  · exact hserved
  · exact isCandid_error (by simp [diskFull, Failure.status])

theorem Store.read_isCandid (s : Store) (id : String) : IsCandid (s.read id) := by
  unfold Store.read
  split
  · exact isCandid_ok _
  · exact isCandid_error (by simp [Failure.noDevice, Failure.status])

theorem Store.list_isCandid (s : Store) (user : String) (o : ListOptions) :
    IsCandid (s.list user o) := by
  intro f hf
  cases horder : o.order with
  | ok order =>
    simp only [Store.list, horder] at hf
    cases hf
  | error e =>
    simp only [Store.list, horder] at hf
    obtain ⟨text, rfl⟩ := ListOptions.invalid_of_order horder
    cases hf
    simp [Failure.status]

namespace World

/-- Whether the device manager never refuses with the status of a success. -/
def ManagerIsCandid (w : World) : Prop :=
  ∀ n f, w.manager n = .declined f → 300 ≤ f.status

/-- The device manager's answer is candid if its refusals are. -/
theorem adoptCall_isCandid {w : World} {t : Token} {d : Device} {r : Except Failure Unit}
    (hmanager : w.ManagerIsCandid) (hanswer : (w.adoptCall t d).1 = some r) : IsCandid r := by
  unfold adoptCall at hanswer
  split at hanswer <;> cases hanswer
  · exact isCandid_ok ()
  · rename_i f hdeclined
    exact isCandid_error (hmanager _ f hdeclined)

/-- What is left of a candid procedure is candid where the device manager is. -/
theorem rest_isCandid {w : World} {p q : Procedure (Except Failure α)} (hp : p.IsCandid)
    (hmanager : w.ManagerIsCandid) (hrest : w.rest p = some q) : q.IsCandid := by
  cases p with
  | done | now | removeLater | notify =>
    cases hrest
    first | exact hp | exact hp _
  | read id next =>
    obtain ⟨r, hanswer, rfl⟩ := Option.map_eq_some_iff.mp hrest
    exact hp r (StoreService.answer_isCandid (w.store.read_isCandid id) hanswer)
  | write d next =>
    obtain ⟨r, hanswer, rfl⟩ := Option.map_eq_some_iff.mp hrest
    exact hp r (StoreService.answer_isCandid (isCandid_ok ()) hanswer)
  | remove id next =>
    obtain ⟨r, hanswer, rfl⟩ := Option.map_eq_some_iff.mp hrest
    exact hp r (StoreService.answer_isCandid (isCandid_ok ()) hanswer)
  | list user o next =>
    obtain ⟨r, hanswer, rfl⟩ := Option.map_eq_some_iff.mp hrest
    exact hp r (StoreService.answer_isCandid (w.store.list_isCandid user o) hanswer)
  | adopt t d next =>
    obtain ⟨r, hanswer, rfl⟩ := Option.map_eq_some_iff.mp hrest
    exact hp r (adoptCall_isCandid hmanager hanswer)

/-- A candid procedure has a candid result where the device manager is candid. -/
theorem run_isCandid {p : Procedure (Except Failure α)} (hp : p.IsCandid) {w v : World}
    (hmanager : w.ManagerIsCandid) {r : Except Failure α} (hrun : w.run p = (.finished r, v)) :
    IsCandid r := by
  induction p using Procedure.rest_induction generalizing w with
  | step p ih =>
    cases hnext : p.nextCall? with
    | none =>
      obtain ⟨r', rfl⟩ := Procedure.eq_done hnext
      cases hrun
      exact hp
    | some c =>
      rw [w.run_eq_rest hnext] at hrun
      cases hrest : w.rest p with
      | none =>
        rw [hrest] at hrun
        cases hrun
      | some q =>
        rw [hrest] at hrun
        have hmanager' : (w.after c).ManagerIsCandid := by
          rwa [ManagerIsCandid, (w.after_fates c).2]
        exact ih w c q hnext hrest (rest_isCandid hp hmanager hrest) hmanager' hrun

end World

end WaitingRoom
