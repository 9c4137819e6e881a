import WaitingRoom.Proofs.Desk.Hanging
import WaitingRoom.Proofs.Desk.Outcomes
import WaitingRoom.Proofs.Desk.Removals

/-!
# Effects of operations

All that an operation on one record does that there is to see: a change to the store, notice of
it, and, where the record is handed over, an adoption and a removal that is put off. The change
to the store is made by the last call that waits for an answer, and notice of it is given
without waiting again; so an operation that hangs has changed no record and given no notice,
and has done nothing but hand a record over if it hangs at the removal of that record.
-/

namespace WaitingRoom

namespace Ledger

/-- What there is to see after a record was written and notice given. -/
def written (l : Ledger) (d : Device) (n : Notice) : Ledger :=
  { l with store := l.store.insert d, notices := l.notices ++ [n] }

/-- What there is to see after a record was deleted and notice given. -/
def deleted (l : Ledger) (id : String) (n : Notice) : Ledger :=
  { l with store := l.store.erase id, notices := l.notices ++ [n] }

/-- What there is to see after devices were taken over and removals put off. -/
def handedOver (l : Ledger) (taken : List Adoption) (putOff : List Removal) : Ledger :=
  { l with adopted := l.adopted ++ taken, removals := l.removals ++ putOff }

end Ledger

namespace Operation

/-- The devices that an operation on one record has taken over. -/
def adoptions (w : World) (token : Token) : Operation → List Adoption
  | use id => (w.store.find? id).toList.map fun d => ⟨token, d⟩
  | _ => []

/-- The removals that an operation on one record puts off. -/
def putsOff (w : World) : Operation → List Removal
  | use id => w.wait.toList.map fun wait => ⟨id, w.elapsed + wait⟩
  | _ => []

/-- The notice that an operation on one record gives to the user who asks for it. -/
def notices (token : Token) : Operation → List Notice
  | set payload => [⟨token.userId, ⟨.set, payload.localId⟩⟩]
  | use id => [⟨token.userId, ⟨.use, id⟩⟩]
  | delete id => [⟨token.userId, ⟨.delete, id⟩⟩]
  | hide id | «show» id => [⟨token.userId, ⟨.set, id⟩⟩]
  | _ => []

/-- Whether all that an operation on one record is to do has been done between two worlds. -/
structure TakesEffect (op : Operation) (token : Token) (w v : World) : Prop where
  store : op.Does w token v.store
  adopted : v.adopted = w.adopted ++ op.adoptions w token
  removals : v.removals = w.removals ++ op.putsOff w
  notices : v.notices = w.notices ++ op.notices token

/-- What there is to see when an operation on one record makes a call that has to be waited
for: as much as before the operation, and at a deletion the handing over of the record. -/
def ledgerAt (op : Operation) (token : Token) (w : World) : Call → Ledger
  | .remove _ => w.ledger.handedOver (op.adoptions w token) (op.putsOff w)
  | _ => w.ledger

end Operation

/-! ## What runs leave behind -/

namespace World

variable {α β : Type} {w : World} {Cut : Moment → Prop}

/-- Whether something is the case wherever a procedure hangs, and something wherever it
succeeds. -/
structure Leaves (w : World) (p : Procedure (Except Failure α)) (Cut : Moment → Prop)
    (Q : α → World → Prop) : Prop where
  hung : ∀ m ∈ w.calls p, m.Hangs → Cut m
  succeeded : ∀ a v, w.run p = (.finished (.ok a), v) → Q a v

namespace Leaves

variable {p : Procedure (Except Failure α)} {Q : α → World → Prop}

theorem of_ok {a : α} (h : Q a w) : w.Leaves (.done (.ok a)) Cut Q := by
  refine ⟨fun _ hm => (nomatch hm), ?_⟩
  rintro _ _ ⟨⟩
  exact h

theorem of_error {f : Failure} : w.Leaves (.done (.error f)) Cut Q := by
  refine ⟨fun _ hm => (nomatch hm), ?_⟩
  rintro _ _ ⟨⟩

/-- What a procedure leaves behind is what its next call does if it hangs, and what is left of
the procedure does after that call. -/
theorem of_rest {c : Call} (hnext : p.nextCall? = some c)
    (hcut : Moment.Hangs ⟨w, c⟩ → Cut ⟨w, c⟩)
    (hrest : ∀ q, w.rest p = some q → (w.after c).Leaves q Cut Q) : w.Leaves p Cut Q := by
  constructor
  · rw [calls_eq_rest hnext]
    refine List.forall_mem_cons.mpr ⟨hcut, ?_⟩
    cases hq : w.rest p with
    | none => exact fun _ hm => nomatch hm
    | some q => exact (hrest q hq).hung
  · intro a v hrun
    rw [w.run_eq_rest hnext] at hrun
    cases hq : w.rest p with
    | none =>
      rw [hq] at hrun
      cases hrun
    | some q =>
      rw [hq] at hrun
      exact (hrest q hq).succeeded a v hrun

/-- What two procedures leave behind of which the second follows the success of the first. -/
theorem andThen {f : α → Procedure (Except Failure β)} {R : β → World → Prop}
    (hp : w.Leaves p Cut Q) (hf : ∀ a v, Q a v → v.Leaves (f a) Cut R) :
    w.Leaves (p.andThen f) Cut R := by
  constructor
  · exact forall_calls_andThen hp.hung fun a v hrun => (hf a v (hp.succeeded a v hrun)).hung
  · intro b u hrun
    rw [run_andThen] at hrun
    split at hrun
    · rename_i a v hfirst
      exact (hf a v (hp.succeeded a v hfirst)).succeeded b u hrun
    · cases hrun
    · cases hrun

/-- What is left behind is so still where less is known of it. -/
theorem imp {R : α → World → Prop} (h : w.Leaves p Cut Q) (himp : ∀ a v, Q a v → R a v) :
    w.Leaves p Cut R :=
  ⟨h.hung, fun a v hrun => himp a v (h.succeeded a v hrun)⟩

end Leaves

/-- Whether nothing that there is to see has changed between two worlds, and no time has
passed. -/
structure Unmoved (w v : World) : Prop where
  ledger : v.ledger = w.ledger
  elapsed : v.elapsed = w.elapsed
  wait : v.wait = w.wait

/-- Reading changes nothing that there is to see. -/
theorem unmoved_read (w : World) (id : String) : Unmoved w (w.after (.read id)) :=
  ⟨Ledger.ext (w.readCall_store id) rfl rfl rfl, rfl, rfl⟩

/-- A device that is taken over is noted. -/
theorem adoptCall_ledger_of_ok {t : Token} {d : Device}
    (hok : (w.adoptCall t d).1 = some (.ok ())) :
    (w.adoptCall t d).2.ledger = w.ledger.handedOver [⟨t, d⟩] [] := by
  unfold adoptCall at hok ⊢
  split at hok <;> simp_all [ledger, Ledger.handedOver, store]

/-- A removal is put off if a wait is configured. -/
theorem removeLater_ledger (w : World) (id : String) :
    (w.removeLater id).ledger = w.ledger.handedOver [] (Operation.putsOff w (.use id)) := by
  unfold removeLater
  cases hwait : w.wait <;> simp [ledger, Ledger.handedOver, Operation.putsOff, hwait, store]

/-- A record is handed over: the device is taken over and the removal put off. -/
theorem handOver_ledger {v : World} {t : Token} {d : Device} (hv : Unmoved w v)
    (hok : (v.adoptCall t d).1 = some (.ok ())) (id : String) :
    ((v.after (.adopt t d)).removeLater id).ledger =
      w.ledger.handedOver [⟨t, d⟩] (Operation.putsOff w (.use id)) := by
  obtain ⟨helapsed, hwait⟩ := v.after_times (.adopt t d)
  have hputsOff : Operation.putsOff (v.after (.adopt t d)) (.use id) =
      Operation.putsOff w (.use id) := by
    simp [Operation.putsOff, helapsed, hwait, hv.elapsed, hv.wait]
  rw [removeLater_ledger, hputsOff, after, adoptCall_ledger_of_ok hok, hv.ledger]
  simp [Ledger.handedOver]

end World

/-! ## The operations of the desk, one by one -/

/-- A call of the store that is answered with success has been served. -/
theorem StoreService.answer_store_of_ok {α : Type} {s : StoreService} {call : StoreCall}
    {served : Except Failure α × Store} {a : α} (hok : (s.answer call served).1 = some (.ok a)) :
    (s.answer call served).2.store = served.2 := by
  unfold answer at hok ⊢
  cases hnext : s.next call with
  | served => rfl
  | failed | hanging => simp [hnext] at hok

namespace Desk

open World (Leaves Unmoved)

variable {token : Token} {w : World} {Cut : Moment → Prop}

/-- What is taken for one's own record is what was found, and one's own. -/
theorem owned_ok {user id : String} {found : Except Failure Device} {d : Device}
    (howned : owned user id found = .ok d) : found = .ok d ∧ d.userId = user := by
  cases found with
  | error f => cases howned
  | ok e =>
    rw [owned] at howned
    split at howned
    · rename_i howner
      obtain rfl := Except.ok.inj howned
      exact ⟨rfl, by simpa [Device.isOwnedBy] using howner⟩
    · cases howned

/-- Reading one's own record changes nothing, and what is read is what is found. -/
theorem readOwned_leaves {id : String} (hcut : Cut ⟨w, .read id⟩) :
    w.Leaves (readOwned token id) Cut fun d v =>
      w.store.find? id = some d ∧ d.userId = token.userId ∧ Unmoved w v := by
  refine .of_rest rfl (fun _ => hcut) fun q hq => ?_
  obtain ⟨found, hanswer, rfl⟩ := Option.map_eq_some_iff.mp hq
  cases howned : owned token.userId id found with
  | error f => exact .of_error
  | ok d =>
    obtain ⟨rfl, howner⟩ := owned_ok howned
    refine .of_ok ⟨?_, howner, w.unmoved_read id⟩
    rcases StoreService.answer_result hanswer with hserved | hfailed
    · exact Store.find?_of_read hserved.symm
    · cases hfailed

/-- Writing a record and giving notice of it. -/
theorem store_leaves {user id : String} {d : Device} (hcut : Cut ⟨w, .write d⟩) :
    w.Leaves (store user d id) Cut fun _ v => v.ledger = w.ledger.written d ⟨user, ⟨.set, id⟩⟩ := by
  refine .of_rest rfl (fun _ => hcut) fun q hq => ?_
  obtain ⟨r, hanswer, rfl⟩ := Option.map_eq_some_iff.mp hq
  cases r with
  | error f => exact .of_error
  | ok _ =>
    refine .of_rest rfl (fun h => h.elim) ?_
    rintro _ ⟨⟩
    exact .of_ok (Ledger.ext (StoreService.answer_store_of_ok hanswer) rfl rfl rfl)

/-- Deleting a record and giving notice of it. -/
theorem discard_leaves {user id : String} {change : Change} (hcut : Cut ⟨w, .remove id⟩) :
    w.Leaves (discard user id change) Cut fun _ v =>
      v.ledger = w.ledger.deleted id ⟨user, ⟨change, id⟩⟩ := by
  refine .of_rest rfl (fun _ => hcut) fun q hq => ?_
  obtain ⟨r, hanswer, rfl⟩ := Option.map_eq_some_iff.mp hq
  cases r with
  | error f => exact .of_error
  | ok _ =>
    refine .of_rest rfl (fun h => h.elim) ?_
    rintro _ ⟨⟩
    exact .of_ok (Ledger.ext (StoreService.answer_store_of_ok hanswer) rfl rfl rfl)

/-- Listing changes nothing. -/
theorem list_leaves {o : ListOptions} (hcut : Cut ⟨w, .list token.userId o⟩) :
    w.Leaves (list token o) Cut fun _ v => v.ledger = w.ledger := by
  refine .of_rest rfl (fun _ => hcut) fun q hq => ?_
  obtain ⟨found, hanswer, rfl⟩ := Option.map_eq_some_iff.mp hq
  cases found with
  | error f => exact .of_error
  | ok page => exact .of_ok (Ledger.ext (w.listCall_store token.userId o) rfl rfl rfl)

/-- Hiding or showing one of the caller's records. -/
theorem setHidden_leaves {hidden : Bool} {id : String} (hread : Cut ⟨w, .read id⟩)
    (hwrite : ∀ v d, Unmoved w v → Cut ⟨v, .write d⟩) :
    w.Leaves (setHidden token hidden id) Cut fun _ v =>
      ∃ d, w.store.find? id = some d ∧ d.userId = token.userId ∧
        v.ledger = w.ledger.written { d with hidden } ⟨token.userId, ⟨.set, id⟩⟩ := by
  refine .andThen (readOwned_leaves hread) ?_
  rintro d v ⟨hfound, howner, hv⟩
  refine (store_leaves (hwrite v _ hv)).imp fun _ u hu => ⟨d, hfound, howner, ?_⟩
  rw [hu, hv.ledger]

/-- Deleting one of the caller's records. -/
theorem delete_leaves {id : String} (hread : Cut ⟨w, .read id⟩)
    (hremove : ∀ v, Unmoved w v → Cut ⟨v, .remove id⟩) :
    w.Leaves (delete token id) Cut fun _ v =>
      ∃ d, w.store.find? id = some d ∧ d.userId = token.userId ∧
        v.ledger = w.ledger.deleted id ⟨token.userId, ⟨.delete, id⟩⟩ := by
  refine .andThen (readOwned_leaves hread) ?_
  rintro d v ⟨hfound, howner, hv⟩
  refine (discard_leaves (hremove v hv)).imp fun _ u hu => ⟨d, hfound, howner, ?_⟩
  rw [hu, hv.ledger]

/-- Handing over one of the caller's records. -/
theorem use_leaves {id : String} (hread : Cut ⟨w, .read id⟩)
    (hadopt : ∀ v d, Unmoved w v → Cut ⟨v, .adopt token d⟩)
    (hremove : ∀ d v, w.store.find? id = some d →
      v.ledger = w.ledger.handedOver [⟨token, d⟩] (Operation.putsOff w (.use id)) →
      Cut ⟨v, .remove id⟩) :
    w.Leaves (use token id) Cut fun _ v =>
      ∃ d, w.store.find? id = some d ∧ d.userId = token.userId ∧
        v.ledger = (w.ledger.handedOver [⟨token, d⟩] (Operation.putsOff w (.use id))).deleted id
          ⟨token.userId, ⟨.use, id⟩⟩ := by
  refine .andThen (readOwned_leaves hread) ?_
  rintro d v ⟨hfound, howner, hv⟩
  refine .of_rest rfl (fun _ => hadopt v d hv) fun q hq => ?_
  obtain ⟨r, hanswer, rfl⟩ := Option.map_eq_some_iff.mp hq
  cases r with
  | error f => exact .of_error
  | ok _ =>
    refine .of_rest rfl (fun h => h.elim) ?_
    rintro _ ⟨⟩
    have hledger := World.handOver_ledger hv hanswer id
    refine (discard_leaves (hremove d _ hfound hledger)).imp fun _ u hu => ⟨d, hfound, howner, ?_⟩
    rw [hu]
    exact congrArg (Ledger.deleted · id _) hledger

/-- Writing a record for a payload. -/
theorem set_leaves {payload : Device} (hread : Cut ⟨w, .read payload.localId⟩)
    (hwrite : ∀ v d, Unmoved w v → Cut ⟨v, .write d⟩) :
    w.Leaves (set token payload) Cut fun _ v =>
      payload.localId ≠ "" ∧ ∃ d,
        prepared token w.clock payload (w.store.read payload.localId) = .ok d ∧
        v.ledger = w.ledger.written d ⟨token.userId, ⟨.set, payload.localId⟩⟩ := by
  unfold set
  split
  · exact .of_error
  · rename_i hid
    have hnamed : payload.localId ≠ "" := fun h => hid (by rw [h]; rfl)
    refine .of_rest rfl (fun h => h.elim) ?_
    rintro _ ⟨⟩
    refine .of_rest rfl (fun _ => hread) fun q hq => ?_
    obtain ⟨found, hanswer, rfl⟩ := Option.map_eq_some_iff.mp hq
    cases hprepared : prepared token w.clock payload found with
    | error f => exact .of_error
    | ok d =>
      have hserved : found = w.store.read payload.localId := by
        rcases StoreService.answer_result hanswer with hserved | rfl
        · exact hserved
        · cases hprepared
      have hunmoved := w.unmoved_read payload.localId
      refine .andThen (store_leaves (hwrite _ d hunmoved)) fun _ u hu =>
        .of_ok ⟨hnamed, d, hserved ▸ hprepared, ?_⟩
      rw [hu, (prepared_ok hprepared).2.1]
      exact congrArg (Ledger.written · d _) hunmoved.ledger

end Desk

namespace Operation

variable {token : Token} {w v : World} {op : Operation}

/-- An operation takes effect if what there is to see afterwards says so. -/
theorem TakesEffect.of_ledger {s : Store} (hstore : op.Does w token s)
    (hledger : v.ledger = ⟨s, w.adopted ++ op.adoptions w token, w.removals ++ op.putsOff w,
      w.notices ++ op.notices token⟩) : op.TakesEffect token w v := by
  obtain rfl : v.store = s := congrArg Ledger.store hledger
  exact ⟨hstore, congrArg Ledger.adopted hledger, congrArg Ledger.removals hledger,
    congrArg Ledger.notices hledger⟩

/-- **An operation on one record is clean.** It has its full effect if it succeeds; if it hangs,
no record has changed and no notice been given, and nothing but the handing over of a record
that was to be deleted has been done. -/
theorem leaves_clean (token : Token) (w : World) (hsingle : op.parts = [op]) :
    w.Leaves (op.procedure token) (fun m => m.world.ledger = op.ledgerAt token w m.call)
      fun _ v => op.TakesEffect token w v := by
  cases op with
  | list o =>
    refine World.Leaves.imp (Desk.list_leaves ?_) ?_
    · rfl
    · intro _ v hv
      refine .of_ledger rfl ?_
      exact hv.trans (by simp [World.ledger, adoptions, putsOff, notices])
  | read id =>
    refine World.Leaves.imp (Desk.readOwned_leaves ?_) ?_
    · rfl
    · rintro _ v ⟨-, -, hv⟩
      refine .of_ledger rfl ?_
      exact hv.ledger.trans (by simp [World.ledger, adoptions, putsOff, notices])
  | set payload =>
    refine World.Leaves.imp (Desk.set_leaves ?_ fun v d hv => ?_) ?_
    · rfl
    · exact hv.ledger
    · rintro _ v ⟨hnamed, d, hprepared, hv⟩
      refine .of_ledger ⟨hnamed, d, hprepared, rfl⟩ ?_
      exact hv.trans (by simp [Ledger.written, World.ledger, adoptions, putsOff, notices])
  | hide id | «show» id =>
    refine World.Leaves.imp (Desk.setHidden_leaves ?_ fun v d hv => ?_) ?_
    · rfl
    · exact hv.ledger
    · rintro _ v ⟨d, hfound, howner, hv⟩
      refine .of_ledger ⟨d, hfound, howner, rfl⟩ ?_
      exact hv.trans (by simp [Ledger.written, World.ledger, adoptions, putsOff, notices])
  | delete id =>
    refine World.Leaves.imp (Desk.delete_leaves ?_ fun v hv => ?_) ?_
    · rfl
    · simp [hv.ledger, ledgerAt, Ledger.handedOver, adoptions, putsOff]
    · rintro _ v ⟨d, hfound, howner, hv⟩
      refine .of_ledger ⟨d, hfound, howner, rfl⟩ ?_
      exact hv.trans (by simp [Ledger.deleted, World.ledger, adoptions, putsOff, notices])
  | use id =>
    refine World.Leaves.imp (Desk.use_leaves ?_ (fun v d hv => ?_) fun d v hfound hv => ?_) ?_
    · rfl
    · exact hv.ledger
    · simp [hv, ledgerAt, adoptions, hfound]
    · rintro _ v ⟨d, hfound, howner, hv⟩
      refine .of_ledger ⟨d, hfound, howner, rfl⟩ ?_
      refine hv.trans ?_
      simp [Ledger.deleted, Ledger.handedOver, World.ledger, adoptions, hfound, notices]
  | setMany ps | useMany ids | deleteMany ids | hideMany ids | showMany ids =>
    simp [parts, List.map_eq_cons_iff] at hsingle

end Operation

end WaitingRoom
