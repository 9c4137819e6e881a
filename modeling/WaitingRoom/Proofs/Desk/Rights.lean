import WaitingRoom.Proofs.Desk.Occasions
import WaitingRoom.Proofs.Store.Lookup

/-!
# What a user has a right to

Users have a right to their own records and to local ids that nobody uses. This file
says what that means for a single call, in the world in which it is made, and proves
that the desk makes no other calls on a user's behalf, whatever the store holds and
whichever calls fail or hang.
-/

namespace WaitingRoom

/-- Whether a local id is free, or stands for a record of the user. -/
def World.IsOpenTo (w : World) (user : String) (id : String) : Prop :=
  ∀ d, w.store.find? id = some d → d.userId = user

/-- Whether the bearer of a token has a right to a call that is made for an operation.
What is written or deleted is the user's own or free; what is handed to the device
manager is the user's record as the store has it, under the user's token; a removal is
put off for a record that was handed over just now; notice is given to the user. -/
def Moment.IsRightful (token : Token) (op : Operation) (m : Moment) : Prop :=
  match m.call with
  | .write d => d.userId = token.userId ∧ m.world.IsOpenTo token.userId d.localId
  | .remove id => id ∈ op.discards ∧ m.world.IsOpenTo token.userId id
  | .adopt t d => t = token ∧ d.userId = token.userId ∧ m.world.store.find? d.localId = some d
  | .removeLater id => id ∈ op.adopts ∧ ∃ d, d.localId = id ∧ d.userId = token.userId ∧
      m.world.adopted.getLast? = some ⟨token, d⟩
  | .notify user _ => user = token.userId
  | _ => True

namespace Desk

variable {token : Token} {op : Operation} {w w' : World}

/-- A record that is read as the caller's own is the caller's, and the store has it. -/
theorem run_readOwned {id : String} {d : Device}
    (hrun : w.run (readOwned token id) = (.finished (.ok d), w')) :
    d.userId = token.userId ∧ w'.store.find? id = some d := by
  rw [readOwned, World.run] at hrun
  split at hrun
  · rename_i r w'' hread
    have hresult : owned token.userId id r = .ok d := by
      simpa [World.run] using congrArg Prod.fst hrun
    have hworld : w'' = w' := by simpa [World.run] using congrArg Prod.snd hrun
    have hstore : w'.store = w.store := by
      have h := World.readCall_store w id
      rwa [hread, hworld] at h
    cases r with
    | error f => cases hresult
    | ok e =>
      rw [owned] at hresult
      split at hresult
      · rename_i howner
        obtain rfl := Except.ok.inj hresult
        refine ⟨by simpa [Device.isOwnedBy] using howner, ?_⟩
        rcases World.readCall_result hread with hfound | hfailed
        · rw [hstore]
          exact Store.find?_of_read hfound.symm
        · cases hfailed
      · cases hresult
  · cases hrun

/-- Reading one's own record is within one's rights. -/
theorem readOwned_rightful (w : World) (id : String) :
    ∀ m ∈ w.calls (readOwned token id), m.IsRightful token op := by
  intro m hm
  rw [readOwned, World.calls] at hm
  rcases List.mem_cons.mp hm with rfl | hm
  · trivial
  · split at hm <;> cases hm

/-- Giving the user notice of a success is within the user's rights. -/
theorem notice_rightful (w : World) (r : Except Failure Unit) (e : Event) :
    ∀ m ∈ w.calls (match r with
      | .ok () => .notify token.userId e (.done (.ok ()))
      | .error f => .done (.error f) : Procedure (Except Failure Unit)),
      m.IsRightful token op := by
  intro m hm
  cases r with
  | error f => cases hm
  | ok _ =>
    obtain rfl := List.mem_singleton.mp hm
    exact rfl

/-- Writing is within the rights of the owner of the record, if its local id is open. -/
theorem store_rightful {d : Device} (w : World) (id : String) (howner : d.userId = token.userId)
    (hopen : w.IsOpenTo token.userId d.localId) :
    ∀ m ∈ w.calls (store token.userId d id), m.IsRightful token op := by
  intro m hm
  rw [store, World.calls] at hm
  rcases List.mem_cons.mp hm with rfl | hm
  · exact ⟨howner, hopen⟩
  · split at hm
    · exact notice_rightful _ _ _ m hm
    · cases hm

/-- Deleting is within the rights of those to whom the local id is open. -/
theorem discard_rightful {id : String} (w : World) (change : Change) (hid : id ∈ op.discards)
    (hopen : w.IsOpenTo token.userId id) :
    ∀ m ∈ w.calls (discard token.userId id change), m.IsRightful token op := by
  intro m hm
  rw [discard, World.calls] at hm
  rcases List.mem_cons.mp hm with rfl | hm
  · exact ⟨hid, hopen⟩
  · split at hm
    · exact notice_rightful _ _ _ m hm
    · cases hm

/-- What is prepared for writing is the caller's and keeps the local id of the payload.
It is prepared for nothing but a record of the caller or a local id that is free. -/
theorem prepared_ok {now : Time.Instant} {payload d : Device} {found : Except Failure Device}
    (hprepared : prepared token now payload found = .ok d) :
    d.userId = token.userId ∧ d.localId = payload.localId ∧
      ((∃ old, found = .ok old ∧ old.userId = token.userId) ∨
        ∃ what, found = .error (.notFound what)) := by
  unfold prepared at hprepared
  split at hprepared
  · rename_i old
    split at hprepared
    · rename_i howner
      obtain rfl := Except.ok.inj hprepared
      exact ⟨rfl, rfl, .inl ⟨old, rfl, by simpa [Device.isOwnedBy] using howner⟩⟩
    · cases hprepared
  · rename_i what
    obtain rfl := Except.ok.inj hprepared
    exact ⟨rfl, rfl, .inr ⟨what, rfl⟩⟩
  · cases hprepared

/-- If a record can be prepared on the answer to a read, its local id is open to the
caller. A read that failed cannot be taken for a missing record. -/
theorem isOpenTo_of_prepared {now : Time.Instant} {payload d : Device}
    {found : Except Failure Device}
    (hread : w.readCall payload.localId = (some found, w'))
    (hprepared : prepared token now payload found = .ok d) :
    w'.IsOpenTo token.userId d.localId := by
  obtain ⟨_, hid, hfound⟩ := prepared_ok hprepared
  have hstore : w'.store = w.store := by
    have h := World.readCall_store w payload.localId
    rwa [hread] at h
  intro e he
  rw [hid, hstore] at he
  rcases World.readCall_result hread with hserved | hfailed
  · rcases hfound with ⟨old, hold, howner⟩ | ⟨what, hmissing⟩
    · have h := Store.find?_of_read (hserved.symm.trans hold)
      rw [h] at he
      exact Option.some.inj he ▸ howner
    · have h := Store.find?_of_read_error (hserved.symm.trans hmissing)
      rw [h] at he
      cases he
  · rcases hfound with ⟨old, hold, _⟩ | ⟨what, hmissing⟩
    · rw [hfailed] at hold
      cases hold
    · rw [hfailed] at hmissing
      cases hmissing

/-- Writing a record for a payload is within the caller's rights. -/
theorem set_rightful (w : World) (payload : Device) :
    ∀ m ∈ w.calls (set token payload), m.IsRightful token op := by
  intro m hm
  rw [set] at hm
  split at hm
  · cases hm
  · rw [World.calls, World.calls] at hm
    rcases List.mem_cons.mp hm with rfl | hm
    · trivial
    · rcases List.mem_cons.mp hm with rfl | hm
      · trivial
      · split at hm
        · rename_i found w' hread
          split at hm
          · cases hm
          · rename_i d hprepared
            have hopen := isOpenTo_of_prepared hread hprepared
            have hwrite : ∀ m ∈ w'.calls (store token.userId d d.localId),
                m.IsRightful token op :=
              store_rightful w' d.localId (prepared_ok hprepared).1 hopen
            refine World.forall_calls_andThen hwrite ?_ m hm
            intro _ w'' _ m hm
            cases hm
        · cases hm

/-- Having a record adopted is within the caller's rights, for an operation that is to
adopt it. The device manager does not touch the store, so the record is still the
caller's when its removal is put off and when it is deleted. -/
theorem use_rightful {id : String} (w : World) (hadopts : id ∈ op.adopts)
    (hdiscards : id ∈ op.discards) :
    ∀ m ∈ w.calls (use token id), m.IsRightful token op := by
  refine World.forall_calls_andThen (readOwned_rightful w id) ?_
  intro d w₁ hrun m hm
  obtain ⟨howner, hfind⟩ := run_readOwned hrun
  have hid := Store.localId_of_find? hfind
  rw [World.calls] at hm
  rcases List.mem_cons.mp hm with rfl | hm
  · exact ⟨rfl, howner, by rwa [hid]⟩
  · split at hm
    · rename_i r w₂ hadopt
      cases r with
      | error f => cases hm
      | ok _ =>
        have hstore : w₂.store = w₁.store := by
          have h := World.adoptCall_store w₁ token d
          rwa [hadopt] at h
        rcases List.mem_cons.mp hm with rfl | hm
        · refine ⟨hadopts, d, hid, howner, ?_⟩
          simp [World.adoptCall_adopted hadopt]
        · refine discard_rightful (w₂.removeLater id) .use hdiscards ?_ m hm
          intro e he
          rw [World.removeLater_store, hstore, hfind] at he
          exact Option.some.inj he ▸ howner
    · cases hm

/-- Deleting one of the caller's records is within the caller's rights. -/
theorem delete_rightful {id : String} (w : World) (hdiscards : id ∈ op.discards) :
    ∀ m ∈ w.calls (delete token id), m.IsRightful token op := by
  refine World.forall_calls_andThen (readOwned_rightful w id) ?_
  intro d w' hrun
  obtain ⟨howner, hfind⟩ := run_readOwned hrun
  refine discard_rightful w' .delete hdiscards ?_
  intro e he
  rw [hfind] at he
  exact Option.some.inj he ▸ howner

/-- Hiding or showing one of the caller's records is within the caller's rights. -/
theorem setHidden_rightful (w : World) (hidden : Bool) (id : String) :
    ∀ m ∈ w.calls (setHidden token hidden id), m.IsRightful token op := by
  refine World.forall_calls_andThen (readOwned_rightful w id) ?_
  intro d w' hrun
  obtain ⟨howner, hfind⟩ := run_readOwned hrun
  have hid := Store.localId_of_find? hfind
  refine store_rightful w' id howner ?_
  intro e he
  rw [hid, hfind] at he
  exact Option.some.inj he ▸ howner

/-- A batch is within the caller's rights if what it does for each of its items is. -/
theorem each_rightful {α β : Type} {p : α → Procedure (Except Failure β)} {items : List α}
    (hitem : ∀ a ∈ items, ∀ w, ∀ m ∈ World.calls (p a) w, m.IsRightful token op) (w : World) :
    ∀ m ∈ w.calls (forget (Procedure.each p items)), m.IsRightful token op := by
  refine World.forall_calls_andThen (World.forall_calls_each hitem w) ?_
  intro _ w' _ m hm
  cases hm

end Desk

/-- The desk makes no call for an operation to which the bearer of the token has no
right. -/
theorem World.callsOf_rightful (w : World) (token : Token) (op : Operation) :
    ∀ m ∈ w.callsOf token op, m.IsRightful token op := by
  unfold World.callsOf
  cases op with
  | list o =>
    intro m hm
    change m ∈ World.calls (Desk.list token o) w at hm
    rw [Desk.list, World.calls] at hm
    rcases List.mem_cons.mp hm with rfl | hm
    · trivial
    · split at hm <;> cases hm
  | read id => exact Desk.readOwned_rightful w id
  | set payload => exact Desk.set_rightful w payload
  | use id => exact Desk.use_rightful w (List.mem_singleton_self id) (List.mem_singleton_self id)
  | delete id => exact Desk.delete_rightful w (List.mem_singleton_self id)
  | hide id => exact Desk.setHidden_rightful w true id
  | «show» id => exact Desk.setHidden_rightful w false id
  | setMany payloads =>
    exact World.forall_calls_each (fun payload _ w => Desk.set_rightful w payload) w
  | useMany ids =>
    have huse : ∀ id ∈ ids, ∀ w, ∀ m ∈ World.calls (Desk.use token id) w,
        m.IsRightful token (.useMany ids) := fun id hid w => Desk.use_rightful w hid hid
    exact Desk.each_rightful huse w
  | deleteMany ids =>
    have hdelete : ∀ id ∈ ids, ∀ w, ∀ m ∈ World.calls (Desk.delete token id) w,
        m.IsRightful token (.deleteMany ids) := fun id hid w => Desk.delete_rightful w hid
    exact Desk.each_rightful hdelete w
  | hideMany ids => exact Desk.each_rightful (fun id _ w => Desk.setHidden_rightful w true id) w
  | showMany ids => exact Desk.each_rightful (fun id _ w => Desk.setHidden_rightful w false id) w

end WaitingRoom
