import WaitingRoom.Proofs.Desk.Rights

/-!
# What an operation comes to

An operation on one record either succeeds, and then it has made one change to the store
or none, or it leaves the store as it was: a call that fails or hangs ends it before the
store is changed. A batch is its parts one after the other up to the first that does not
succeed, so all that happens in between two parts of a batch is that the one world is
handed on; a batch during which the clock moves is the row of its parts with the clock set
in between.
-/

namespace WaitingRoom

namespace World

variable {α β : Type}

/-! ## Runs of procedures that follow one another -/

/-- A procedure followed by another runs to its end, and then the other does. -/
theorem run_bind (p : Procedure α) (f : α → Procedure β) (w : World) :
    w.run (p.bind f) = match w.run p with
      | (.finished a, w) => w.run (f a)
      | (.hung, w) => (.hung, w) := by
  induction p generalizing w with
  | done => rfl
  | now next ih => exact ih w.clock w
  | removeLater _ next ih | notify _ _ next ih => exact ih _
  | read _ next ih | write _ next ih | remove _ next ih | list _ _ next ih | adopt _ _ next ih =>
    simp only [Procedure.bind, run]
    split
    · exact ih _ _
    · rfl

/-- A procedure followed by what is to follow its success. -/
theorem run_andThen (p : Procedure (Except Failure α)) (f : α → Procedure (Except Failure β))
    (w : World) :
    w.run (p.andThen f) = match w.run p with
      | (.finished (.ok a), w) => w.run (f a)
      | (.finished (.error e), w) => (.finished (.error e), w)
      | (.hung, w) => (.hung, w) := by
  rw [Procedure.andThen, run_bind]
  rcases w.run p with ⟨ending, v⟩
  cases ending with
  | hung => rfl
  | finished r => cases r <;> rfl

/-- No call moves the clock. -/
theorem after_clock (w : World) (c : Call) : (w.after c).clock = w.clock := by
  cases c with
  | adopt => simp only [after, adoptCall]; split <;> rfl
  | removeLater => simp only [after, removeLater]; split <;> rfl
  | _ => rfl

/-- No run moves the clock. -/
theorem run_clock (p : Procedure α) (w : World) : (w.run p).2.clock = w.clock :=
  run_respects (R := fun w w' => w'.clock = w.clock) (fun _ => rfl)
    (fun h₁ h₂ => h₂.trans h₁) p w fun m _ => m.world.after_clock m.call

/-! ## All or nothing -/

/-- A call of the store is served, or it is answered with a failure or not at all and
changes nothing. -/
theorem storeCall_cases (w : World) (call : StoreCall) (served : Except Failure α × Store)
    {answer : Option (Except Failure α) × World}
    (hcall : answer = ((w.service.answer call served).1,
      { w with service := (w.service.answer call served).2 })) :
    (∃ v, answer = (some served.1, v) ∧ v.store = served.2) ∨
      ∃ v, (answer = (some (.error diskFull), v) ∨ answer = (none, v)) ∧ v.store = w.store := by
  subst hcall
  unfold StoreService.answer
  cases w.service.next call with
  | served => exact .inl ⟨_, rfl, rfl⟩
  | failed => exact .inr ⟨_, .inl rfl, rfl⟩
  | hanging => exact .inr ⟨_, .inr rfl, rfl⟩

/-- Whether a run is all or nothing: it succeeds, and something holds of its result and of
the store afterwards, or it does not and leaves the store as it was. -/
def AllOrNothing (w : World) (p : Procedure (Except Failure α)) (Q : α → Store → Prop) : Prop :=
  (∃ a v, w.run p = (.finished (.ok a), v) ∧ Q a v.store) ∨
    ((∀ a v, w.run p ≠ (.finished (.ok a), v)) ∧ (w.run p).2.store = w.store)

namespace AllOrNothing

variable {w v : World} {p : Procedure (Except Failure α)} {Q : α → Store → Prop}

/-- A run that hangs before the store is changed. -/
theorem of_hung (hrun : w.run p = (.hung, v)) (hstore : v.store = w.store) :
    w.AllOrNothing p Q := by
  refine .inr ⟨fun a v' h => ?_, by rw [hrun]; exact hstore⟩
  rw [hrun] at h
  cases h

/-- A run that fails before the store is changed. -/
theorem of_error {f : Failure} (hrun : w.run p = (.finished (.error f), v))
    (hstore : v.store = w.store) : w.AllOrNothing p Q := by
  refine .inr ⟨fun a v' h => ?_, by rw [hrun]; exact hstore⟩
  rw [hrun] at h
  cases h

/-- A run that goes on as another does from a world with the same store. -/
theorem of_run {q : Procedure (Except Failure α)} (hrun : w.run p = v.run q)
    (hstore : v.store = w.store) (h : v.AllOrNothing q Q) : w.AllOrNothing p Q := by
  unfold AllOrNothing
  rw [hrun, ← hstore]
  exact h

/-- What is all or nothing is so still where less is known of its success. -/
theorem imp {R : α → Store → Prop} (h : w.AllOrNothing p Q) (himp : ∀ a s, Q a s → R a s) :
    w.AllOrNothing p R := by
  refine h.imp_left ?_
  rintro ⟨a, v, hrun, hQ⟩
  exact ⟨a, v, hrun, himp a _ hQ⟩

/-- What is all or nothing is so still if a success answers something else. -/
theorem answering {g : α → β} {R : β → Store → Prop} (h : w.AllOrNothing p Q)
    (himp : ∀ a s, Q a s → R (g a) s) :
    w.AllOrNothing (p.andThen fun a => .done (.ok (g a))) R := by
  have hrun := run_andThen p (fun a => .done (.ok (g a))) w
  rcases h with ⟨a, v, hp, hQ⟩ | ⟨hnever, hkept⟩
  · rw [hp] at hrun
    exact .inl ⟨g a, v, hrun, himp a _ hQ⟩
  · rcases hp : w.run p with ⟨ending, v⟩
    rw [hp] at hrun hkept hnever
    cases ending with
    | hung => exact .of_hung hrun hkept
    | finished r =>
      cases r with
      | error e => exact .of_error hrun hkept
      | ok a => exact absurd rfl (hnever a v)

/-- A record is read first, and what follows is all or nothing, whether it is served what
is found or a failure. -/
theorem read {id : String} {next : Except Failure Device → Procedure (Except Failure α)}
    (hserved : ∀ v : World, v.store = w.store → v.AllOrNothing (next (w.store.read id)) Q)
    (hfailed : ∀ v : World, v.store = w.store → v.AllOrNothing (next (.error diskFull)) Q) :
    w.AllOrNothing (.read id next) Q := by
  have hcall : w.readCall id = _ := rfl
  rcases w.storeCall_cases .read (w.store.read id, w.store) hcall with
    ⟨v, hread, hstore⟩ | ⟨v, hread | hread, hstore⟩
  · exact of_run (by rw [run, hread]) hstore (hserved v hstore)
  · exact of_run (by rw [run, hread]) hstore (hfailed v hstore)
  · exact of_hung (by rw [run, hread]) hstore

end AllOrNothing

end World

/-! ## The operations of the desk, one by one -/

namespace Desk

open Procedure (done)
open World (AllOrNothing)

variable {token : Token}

/-- Writing a record and giving notice of it is all or nothing. -/
theorem store_allOrNothing (w : World) (user : String) (d : Device) (id : String) :
    w.AllOrNothing (store user d id) fun _ s => s = w.store.insert d := by
  have hcall : w.writeCall d = _ := rfl
  rcases w.storeCall_cases .write (.ok (), w.store.insert d) hcall with
    ⟨v, hwrite, hstore⟩ | ⟨v, hwrite | hwrite, hstore⟩
  · exact .inl ⟨(), v.notify user ⟨.set, id⟩, by rw [store, World.run, hwrite]; rfl, hstore⟩
  · exact .of_error (by rw [store, World.run, hwrite]; rfl) hstore
  · exact .of_hung (by rw [store, World.run, hwrite]) hstore

/-- Deleting a record and giving notice of it is all or nothing. -/
theorem discard_allOrNothing (w : World) (user : String) (id : String) (change : Change) :
    w.AllOrNothing (discard user id change) fun _ s => s = w.store.erase id := by
  have hcall : w.removeCall id = _ := rfl
  rcases w.storeCall_cases .remove (.ok (), w.store.erase id) hcall with
    ⟨v, hremove, hstore⟩ | ⟨v, hremove | hremove, hstore⟩
  · exact .inl ⟨(), v.notify user ⟨change, id⟩, by rw [discard, World.run, hremove]; rfl, hstore⟩
  · exact .of_error (by rw [discard, World.run, hremove]; rfl) hstore
  · exact .of_hung (by rw [discard, World.run, hremove]) hstore

/-- What is all or nothing for every record that is found and belongs to the caller is so
when that record is read first. -/
theorem readOwned_allOrNothing {α : Type} {f : Device → Procedure (Except Failure α)}
    {Q : α → Store → Prop} (w : World) (id : String)
    (hnext : ∀ d (v : World), w.store.find? id = some d → d.userId = token.userId →
      v.store = w.store → v.AllOrNothing (f d) Q) :
    w.AllOrNothing ((readOwned token id).andThen f) Q := by
  refine AllOrNothing.read (fun v hstore => ?_) fun v _ => .of_error rfl rfl
  cases hread : w.store.read id with
  | error e => exact .of_error rfl rfl
  | ok d =>
    change v.AllOrNothing ((done (owned token.userId id (.ok d))).andThen f) Q
    by_cases howner : d.userId = token.userId
    · have howned : owned token.userId id (.ok d) = .ok d := by
        simp [owned, Device.isOwnedBy, howner]
      rw [howned]
      exact hnext d v (Store.find?_of_read hread) howner hstore
    · have hforeign : owned token.userId id (.ok d) = .error (.foreignDevice id) := by
        simp [owned, Device.isOwnedBy, howner]
      rw [hforeign]
      exact .of_error rfl rfl

/-- Reading one's own record does nothing to the store. -/
theorem read_allOrNothing (w : World) (id : String) :
    w.AllOrNothing (read token id) fun _ s => s = w.store := by
  refine AllOrNothing.read (fun v hstore => ?_) fun v _ => .of_error rfl rfl
  cases hanswer : owned token.userId id (w.store.read id) with
  | error f => exact .of_error rfl rfl
  | ok d => exact .inl ⟨d, v, rfl, hstore⟩

/-- Listing does nothing to the store. -/
theorem list_allOrNothing (w : World) (o : ListOptions) :
    w.AllOrNothing (list token o) fun _ s => s = w.store := by
  have hstore := w.listCall_store token.userId o
  rcases hlist : w.listCall token.userId o with ⟨answer, v⟩
  rw [hlist] at hstore
  cases answer with
  | none => exact .of_hung (by rw [list, World.run, hlist]) hstore
  | some r =>
    cases r with
    | error f => exact .of_error (by rw [list, World.run, hlist]; rfl) hstore
    | ok found => exact .inl ⟨_, v, by rw [list, World.run, hlist]; rfl, hstore⟩

/-- Writing a record for a payload is all or nothing. What is written was prepared with the
record in view that is found under the payload's local id, for a read that fails is not
taken for a missing record. -/
theorem set_allOrNothing (w : World) (payload : Device) :
    w.AllOrNothing (set token payload) fun _ s => payload.localId ≠ "" ∧ ∃ d,
      prepared token w.clock payload (w.store.read payload.localId) = .ok d ∧
      s = w.store.insert d := by
  rw [set]
  split
  · exact .of_error rfl rfl
  · rename_i hid
    have hnamed : payload.localId ≠ "" := fun h => hid (by rw [h]; rfl)
    refine .of_run (v := w) (q := .read payload.localId _) rfl rfl ?_
    refine .read (fun v hstore => ?_) fun v _ => .of_error rfl rfl
    · cases hprepared : prepared token w.clock payload (w.store.read payload.localId) with
      | error f => exact .of_error rfl rfl
      | ok d =>
        refine (store_allOrNothing v token.userId d d.localId).answering fun _ s hs => ?_
        exact ⟨hnamed, d, rfl, hs.trans (by rw [hstore])⟩

/-- Deleting a record that is the caller's, after whatever else was done without touching
the store, is all or nothing. -/
theorem discard_own_allOrNothing {w v : World} {id : String} {d : Device} (change : Change)
    (hfound : w.store.find? id = some d) (howner : d.userId = token.userId)
    (hstore : v.store = w.store) :
    v.AllOrNothing (discard token.userId id change) fun _ s =>
      ∃ d, w.store.find? id = some d ∧ d.userId = token.userId ∧ s = w.store.erase id :=
  (discard_allOrNothing v token.userId id change).imp fun _ s hs =>
    ⟨d, hfound, howner, hs.trans (by rw [hstore])⟩

/-- Handing a record over is all or nothing, deleted as it is in the end: neither the
device manager nor a removal that is put off touches the store. -/
theorem use_allOrNothing (w : World) (id : String) :
    w.AllOrNothing (use token id) fun _ s =>
      ∃ d, w.store.find? id = some d ∧ d.userId = token.userId ∧ s = w.store.erase id := by
  refine readOwned_allOrNothing w id fun d v hfound howner hstore => ?_
  have hadopted := v.adoptCall_store token d
  rcases hadopt : v.adoptCall token d with ⟨answer, u⟩
  rw [hadopt] at hadopted
  cases answer with
  | none => exact .of_hung (by rw [World.run, hadopt]) hadopted
  | some r =>
    cases r with
    | error f => exact .of_error (by rw [World.run, hadopt]; rfl) hadopted
    | ok _ =>
      have hkept := (u.removeLater_store id).trans hadopted
      refine .of_run (v := u.removeLater id) (q := discard token.userId id .use)
        (by rw [World.run, hadopt]; rfl) hkept ?_
      exact discard_own_allOrNothing .use hfound howner (hkept.trans hstore)

/-- Deleting one of the caller's records is all or nothing. -/
theorem delete_allOrNothing (w : World) (id : String) :
    w.AllOrNothing (delete token id) fun _ s =>
      ∃ d, w.store.find? id = some d ∧ d.userId = token.userId ∧ s = w.store.erase id :=
  readOwned_allOrNothing w id fun _ _ hfound howner hstore =>
    discard_own_allOrNothing .delete hfound howner hstore

/-- Hiding or showing one of the caller's records is all or nothing. -/
theorem setHidden_allOrNothing (w : World) (hidden : Bool) (id : String) :
    w.AllOrNothing (setHidden token hidden id) fun _ s => ∃ d, w.store.find? id = some d ∧
      d.userId = token.userId ∧ s = w.store.insert { d with hidden } := by
  refine readOwned_allOrNothing w id fun d v hfound howner hstore => ?_
  refine (store_allOrNothing v token.userId { d with hidden } id).imp fun _ s hs => ?_
  exact ⟨d, hfound, howner, hs.trans (by rw [hstore])⟩

end Desk

/-! ## What an operation does -/

namespace Operation

/-- The parts of an operation: those of a batch are done one after the other. -/
def parts : Operation → List Operation
  | setMany payloads => payloads.map set
  | useMany ids => ids.map use
  | deleteMany ids => ids.map delete
  | hideMany ids => ids.map hide
  | showMany ids => ids.map «show»
  | op => [op]

/-- What an operation that is no batch does to the store when it succeeds: a record is
written for a payload, with what is found under its local id in view; a record of the
user is deleted, or written with another visibility; or nothing is done. -/
def Does (w : World) (token : Token) (s : Store) : Operation → Prop
  | set payload => payload.localId ≠ "" ∧ ∃ d,
      Desk.prepared token w.clock payload (w.store.read payload.localId) = .ok d ∧
      s = w.store.insert d
  | use id | delete id => ∃ d, w.store.find? id = some d ∧ d.userId = token.userId ∧
      s = w.store.erase id
  | hide id => ∃ d, w.store.find? id = some d ∧ d.userId = token.userId ∧
      s = w.store.insert { d with hidden := true }
  | «show» id => ∃ d, w.store.find? id = some d ∧ d.userId = token.userId ∧
      s = w.store.insert { d with hidden := false }
  | _ => s = w.store

/-- The parts of an operation have no parts but themselves. -/
theorem parts_of_mem {op part : Operation} (hpart : part ∈ op.parts) : part.parts = [part] := by
  cases op with
  | setMany | useMany | deleteMany | hideMany | showMany =>
    obtain ⟨_, -, rfl⟩ := List.mem_map.mp hpart
    rfl
  | set | use | delete | hide | «show» | read | list =>
    obtain rfl := List.mem_singleton.mp hpart
    rfl

end Operation

namespace World

/-- An operation that is no batch is all or nothing. -/
theorem single_allOrNothing (w : World) (token : Token) {op : Operation}
    (hsingle : op.parts = [op]) :
    w.AllOrNothing (op.procedure token) fun _ s => op.Does w token s := by
  cases op with
  | list o => exact Desk.list_allOrNothing w o
  | read id => exact Desk.read_allOrNothing w id
  | set payload => exact Desk.set_allOrNothing w payload
  | use id => exact Desk.use_allOrNothing w id
  | delete id => exact Desk.delete_allOrNothing w id
  | hide id => exact Desk.setHidden_allOrNothing w true id
  | «show» id => exact Desk.setHidden_allOrNothing w false id
  | setMany ps | useMany ids | deleteMany ids | hideMany ids | showMany ids =>
    simp [Operation.parts, List.map_eq_cons_iff] at hsingle

end World

end WaitingRoom
