import WaitingRoom.Proofs.Desk.Batches
import WaitingRoom.Proofs.Desk.Courses
import WaitingRoom.Proofs.Desk.Locality

/-!
# Operations in another order

Operations on different records do not get in each other's way: asked for in either order, both
are told the same, and the store, the notices, the adoptions and the removals put off come to the
same in the end. Nor do the parts of a batch, if they are about different records and all of them
succeed. Of two operations that hide or show the same record the last alone matters.
-/

namespace WaitingRoom

variable {α β : Type} {w v u : World} {token : Token}

/-! ## Two operations -/

/-- An operation that somebody asks for, and what the device manager answers if it is asked about
the record. -/
structure Errand where
  token : Token
  operation : Operation
  answer : ManagerReply

namespace World

/-- The same desk with a device manager that always answers the same. -/
def facing (w : World) (answer : ManagerReply) : World := { w with manager := fun _ => answer }

/-- The world after an errand. -/
def doing (w : World) (e : Errand) : World :=
  (w.facing e.answer).perform e.token e.operation

/-- What is told of an errand. -/
def toldOf (w : World) (e : Errand) : Ending (Except Failure Reply) :=
  (w.facing e.answer).replyTo e.token e.operation

/-- Whether it makes no difference which of two errands is done first. -/
structure Commute (w : World) (e e' : Errand) : Prop where
  told : (w.doing e').toldOf e = w.toldOf e
  told' : (w.doing e).toldOf e' = w.toldOf e'
  store : ((w.doing e').doing e).store = ((w.doing e).doing e').store
  notices : ((w.doing e').doing e).notices.Perm ((w.doing e).doing e').notices
  adopted : ((w.doing e').doing e).adopted.Perm ((w.doing e).doing e').adopted
  removals : ((w.doing e').doing e).removals.Perm ((w.doing e).doing e').removals

/-- It does not depend on the device manager what is stored, nor what time it is. -/
theorem alikeOn_facing (ids : String → Prop) (w : World) (answer : ManagerReply) :
    AlikeOn ids w (w.facing answer) := ⟨fun _ _ => rfl, rfl, rfl, rfl, rfl⟩

/-- Two worlds are alike if each is like a third world but for some records, and like a fourth
but for others. -/
theorem AlikeOn.of_both {ids ids' : String → Prop} {x y : World} (hapart : ∀ i, ids i → ¬ ids' i)
    (hx : AlikeOn (fun i => ¬ ids i) x u) (hx' : AlikeOn (fun i => ¬ ids i) x v)
    (hy : AlikeOn (fun i => ¬ ids' i) y u) (hy' : AlikeOn (fun i => ¬ ids' i) y v) :
    AlikeOn (fun _ => True) u v :=
  ((hy.symm.trans hy').mono hapart).union (hx.symm.trans hx')

/-- An operation leaves the world as it is but for the record that it is about. -/
theorem alikeOn_perform {op : Operation} {id : String} (htarget : op.target? = some id)
    (w : World) (token : Token) : AlikeOn (fun i => ¬ i = id) w (w.perform token op) := by
  have hwithin : (op.procedure token).StaysWithin (fun i => i = id) := by
    refine op.staysWithin htarget ?_ token
    rfl
  exact alikeOn_run hwithin w

variable {e e' : Errand} {id id' : String}

/-- An errand leaves the world as it is but for the record that it is about. -/
theorem alikeOn_doing (htarget : e.operation.target? = some id) (w : World) :
    AlikeOn (fun i => ¬ i = id) w (w.doing e) :=
  (alikeOn_facing _ w e.answer).trans (alikeOn_perform htarget _ e.token)

/-- An errand goes the same way, and leaves the world the same outside of the record of another
errand, if that has been done before. -/
theorem runsTheSame_after (hw : w.IsFair) (hid : e.operation.target? = some id)
    (hid' : e'.operation.target? = some id') (hne : id ≠ id') :
    RunsTheSame (fun i => ¬ i = id) (e'.operation.procedure e'.token) (w.facing e'.answer)
      ((w.doing e).facing e'.answer) := by
  have halike : AlikeOn (fun i => ¬ i = id) (w.facing e'.answer)
      ((w.doing e).facing e'.answer) :=
    (alikeOn_facing _ w _).symm.trans ((alikeOn_doing hid w).trans (alikeOn_facing _ _ _))
  have hother : (fun i => ¬ i = id) id' := hne.symm
  exact halike.runsTheSame hw (e'.operation.staysWithin hid' hother e'.token) fun _ _ => rfl

/-- Two rows hold the same if the same is added to one row in either order. -/
theorem perm_of_orders {before first second here both there both' : List α}
    (hhere : here = before ++ first) (hboth : both = here ++ second)
    (hthere : there = before ++ second) (hboth' : both' = there ++ first) : both'.Perm both := by
  rw [hboth, hhere, hboth', hthere, List.append_assoc, List.append_assoc]
  exact List.perm_append_comm.append_left before

/-- Errands about different records commute. -/
theorem IsFair.commute (hw : w.IsFair) (hid : e.operation.target? = some id)
    (hid' : e'.operation.target? = some id') (hne : id ≠ id') : w.Commute e e' := by
  obtain ⟨htold', halike', n', hfirst', hsecond'⟩ := runsTheSame_after hw hid hid' hne
  obtain ⟨htold, halike, n, hfirst, hsecond⟩ := runsTheSame_after hw hid' hid hne.symm
  have hkept := alikeOn_doing hid (w.doing e')
  have hkept' := alikeOn_doing hid' (w.doing e)
  have hends : AlikeOn (fun _ => True) ((w.doing e).doing e') ((w.doing e').doing e) :=
    .of_both (fun i hi hi' => hne (hi.symm.trans hi')) halike' hkept hkept' halike
  constructor
  · exact congrArg (Ending.told e.operation.reply) htold
  · exact congrArg (Ending.told e'.operation.reply) htold'
  · exact hends.store_eq
  · exact perm_of_orders hfirst.notices hsecond'.notices hfirst'.notices hsecond.notices
  · exact perm_of_orders hfirst.adopted hsecond'.adopted hfirst'.adopted hsecond.adopted
  · exact perm_of_orders hfirst.removals hsecond'.removals hfirst'.removals hsecond.removals

end World

/-! ## Hiding and showing -/

/-- A store in which a record was hidden or shown on behalf of a user: it is stored with the new
visibility if it is the user's, and nothing has changed if it is not. -/
def Store.veiled (s : Store) (user : String) (hidden : Bool) (id : String) : Store :=
  match s.find? id with
  | some d => if d.userId = user then s.insert { d with hidden } else s
  | none => s

/-- A record that was hidden or shown and is hidden or shown again is as if only the latter had
been done. -/
theorem Store.veiled_veiled (s : Store) (user : String) (hidden hidden' : Bool) (id : String) :
    (s.veiled user hidden id).veiled user hidden' id = s.veiled user hidden' id := by
  cases hfind : s.find? id with
  | none => simp only [Store.veiled, hfind]
  | some d =>
    by_cases howner : d.userId = user
    · have hid : d.localId = id := localId_of_find? hfind
      have hfirst : (s.insert { d with hidden }).find? id = some { d with hidden } := by
        rw [find?_insert]
        exact if_pos hid
      simp only [Store.veiled, hfind, hfirst, if_pos howner]
      apply ext_find?
      intro i
      simp only [find?_insert]
      split <;> rfl
    · simp only [Store.veiled, hfind, if_neg howner]

namespace World

/-- Where every call is served a record that is written is stored. -/
theorem IsFair.store_write (hw : w.IsFair) (user : String) (d : Device) (id : String) :
    (w.run (Desk.store user d id)).2.store = w.store.insert d := by
  have hwrite : w.rest (Desk.store user d id) = some _ :=
    congrArg (Option.map _) (hw.writeCall d)
  rw [w.run_eq_rest (c := .write d) rfl, hwrite]
  exact (hw.answer .write (.ok (), w.store.insert d)).2

/-- Where every call is served a record is hidden or shown if it is the user's. -/
theorem IsFair.store_setHidden (hw : w.IsFair) (token : Token) (hidden : Bool) (id : String) :
    (w.run (Desk.setHidden token hidden id)).2.store =
      w.store.veiled token.userId hidden id := by
  have hread : w.rest (Desk.setHidden token hidden id) = some _ :=
    congrArg (Option.map _) (hw.readCall id)
  have hafter := hw.after (.read id)
  have hstore : (w.after (.read id)).store = w.store := w.readCall_store id
  rw [w.run_eq_rest (c := .read id) rfl, hread, Store.veiled]
  cases hfind : w.store.find? id with
  | none =>
    simp only [Store.read, hfind]
    exact hstore
  | some d =>
    simp only [Store.read, hfind]
    by_cases howner : d.userId = token.userId
    · have howned : Desk.owned token.userId id (.ok d) = .ok d := by
        simp [Desk.owned, Device.isOwnedBy, howner]
      simp only [if_pos howner, Procedure.bind, howned]
      rw [hafter.store_write, hstore]
    · have hforeign : Desk.owned token.userId id (.ok d) = .error (.foreignDevice id) := by
        simp [Desk.owned, Device.isOwnedBy, howner]
      simp only [if_neg howner, Procedure.bind, hforeign]
      exact hstore

/-- Of two operations that hide or show a record only the latter matters. -/
theorem IsFair.setHidden_setHidden (hw : w.IsFair) (token : Token) (id : String)
    (hidden hidden' : Bool) :
    ((w.run (Desk.setHidden token hidden id)).2.run (Desk.setHidden token hidden' id)).2.store =
      (w.run (Desk.setHidden token hidden' id)).2.store := by
  have hafter := hw.run (Desk.setHidden token hidden id)
  rw [hafter.store_setHidden, hw.store_setHidden, hw.store_setHidden, Store.veiled_veiled]

end World

/-! ## Heeding the device manager -/

/-- Whether a procedure fails as soon as the device manager refuses a device. -/
def Procedure.HeedsManager : Procedure (Except Failure α) → Prop
  | .done _ => True
  | .now next => ∀ t, (next t).HeedsManager
  | .read _ next => ∀ r, (next r).HeedsManager
  | .write _ next => ∀ r, (next r).HeedsManager
  | .remove _ next => ∀ r, (next r).HeedsManager
  | .list _ _ next => ∀ r, (next r).HeedsManager
  | .adopt _ _ next =>
    (∀ f, ∃ e, next (.error f) = .done (.error e)) ∧ (next (.ok ())).HeedsManager
  | .removeLater _ next => next.HeedsManager
  | .notify _ _ next => next.HeedsManager

/-- Two procedures of which the second follows the success of the first. -/
theorem Procedure.HeedsManager.andThen {p : Procedure (Except Failure α)}
    {f : α → Procedure (Except Failure β)} (hp : p.HeedsManager) (hf : ∀ a, (f a).HeedsManager) :
    (p.andThen f).HeedsManager := by
  induction p with
  | done r =>
    cases r with
    | ok a => exact hf a
    | error e => trivial
  | now _ ih | read _ _ ih | write _ _ ih | remove _ _ ih | list _ _ _ ih =>
    exact fun r => ih r (hp r)
  | adopt _ _ next ih =>
    refine ⟨fun e => ?_, ih (.ok ()) hp.2⟩
    obtain ⟨e', he'⟩ := hp.1 e
    exact ⟨e', congrArg (Procedure.andThen · f) he'⟩
  | removeLater _ _ ih | notify _ _ _ ih => exact ih hp

/-- An operation on one record heeds the device manager: nothing else is done about a device that
it refuses. -/
theorem Operation.heedsManager {op : Operation} {id : String} (htarget : op.target? = some id)
    (token : Token) : (op.procedure token).HeedsManager := by
  have hread (id : String) : (Desk.readOwned token id).HeedsManager := fun _ => trivial
  have hstore (d : Device) (id : String) : (Desk.store token.userId d id).HeedsManager := by
    intro r
    cases r <;> trivial
  have hdiscard (id : String) (change : Change) :
      (Desk.discard token.userId id change).HeedsManager := by
    intro r
    cases r <;> trivial
  cases op with
  | read id => exact hread id
  | set payload =>
    change (Desk.set token payload).HeedsManager
    unfold Desk.set
    split
    · trivial
    · intro now found
      dsimp only
      split
      · trivial
      · exact (hstore _ _).andThen fun _ => trivial
  | use id => exact (hread id).andThen fun d => ⟨fun f => ⟨f, rfl⟩, hdiscard id .use⟩
  | delete id => exact (hread id).andThen fun _ => hdiscard id .delete
  | hide id | «show» id => exact (hread id).andThen fun d => hstore _ id
  | list | setMany | useMany | deleteMany | hideMany | showMany => cases htarget

namespace World

/-- The device manager has taken over all devices that a procedure asked it about, if the
procedure heeds it and has succeeded. -/
theorem accepted_of_success {p : Procedure (Except Failure α)} (hp : p.HeedsManager) {a : α}
    (hrun : w.run p = (.finished (.ok a), v)) {n : Nat} (hfrom : w.asked ≤ n) (hto : n < v.asked) :
    w.manager n = .accepted := by
  induction p using Procedure.rest_induction generalizing w with
  | step p ih =>
    cases hnext : p.nextCall? with
    | none =>
      obtain ⟨b, rfl⟩ := Procedure.eq_done hnext
      cases hrun
      omega
    | some c =>
      obtain ⟨q, hq, hrun, -⟩ := finished_of_nextCall hnext hrun
      have hcall := w.adds_after c
      have hrest (hq' : q.HeedsManager) (hfrom : (w.after c).asked ≤ n) :
          w.manager n = .accepted := by
        have hlater := ih w c q hnext hq hq' hrun hfrom
        rwa [hcall.manager] at hlater
      cases p with
      | done => cases hnext
      | now =>
        cases hnext
        cases hq
        exact hrest (hp w.clock) (by rw [hcall.asked]; exact hfrom)
      | removeLater | notify =>
        cases hnext
        cases hq
        exact hrest hp (by rw [hcall.asked]; exact hfrom)
      | read | write | remove | list =>
        cases hnext
        obtain ⟨r, -, rfl⟩ := Option.map_eq_some_iff.mp hq
        exact hrest (hp r) (by rw [hcall.asked]; exact hfrom)
      | adopt t d next =>
        cases hnext
        obtain ⟨r, hanswer, rfl⟩ := Option.map_eq_some_iff.mp hq
        cases r with
        | error f =>
          obtain ⟨e, he⟩ := hp.1 f
          rw [he] at hrun
          cases hrun
        | ok _ =>
          have hasked : (w.after (.adopt t d)).asked = w.asked + 1 := hcall.asked
          rcases Nat.eq_or_lt_of_le hfrom with rfl | hlater
          · unfold adoptCall at hanswer
            split at hanswer
            · assumption
            · cases hanswer
            · cases hanswer
          · exact hrest hp.2 (by omega)

/-! ## Rows of operations -/

/-- The world after operations that somebody asks for one after the other. -/
def performAll (w : World) (token : Token) (ops : List Operation) : World :=
  w.meetAll (ops.map (.request token))

/-- Whether operations all succeed that somebody asks for one after the other. -/
def AllSucceed (w : World) (token : Token) (ops : List Operation) : Prop :=
  ∀ told ∈ w.replies (ops.map (.request token)), told.isSuccess = true

/-- Operations all succeed if the first does and then the others do. -/
theorem allSucceed_cons {op : Operation} {ops : List Operation} :
    w.AllSucceed token (op :: ops) ↔
      (w.replyTo token op).isSuccess = true ∧ (w.perform token op).AllSucceed token ops :=
  List.forall_mem_cons

/-- Whether two worlds are alike, and the device manager is yet to give the same answers. -/
structure Interchangeable (w v : World) : Prop where
  alike : AlikeOn (fun _ => True) w v
  manager : v.manager = w.manager
  asked : v.asked = w.asked

theorem Interchangeable.refl (w : World) : Interchangeable w w := ⟨.refl _ w, rfl, rfl⟩

theorem Interchangeable.trans (h : Interchangeable w v) (h' : Interchangeable v u) :
    Interchangeable w u :=
  ⟨h.alike.trans h'.alike, h'.manager.trans h.manager, h'.asked.trans h.asked⟩

/-- An operation on one record does the same in worlds that are interchangeable. -/
theorem Interchangeable.perform (h : Interchangeable w v) (hw : w.IsFair) {op : Operation}
    {id : String} (htarget : op.target? = some id) :
    v.replyTo token op = w.replyTo token op ∧
      Interchangeable (w.perform token op) (v.perform token op) := by
  obtain ⟨hending, hafter, n, hn, hn'⟩ :=
    h.alike.runsTheSame hw (op.staysWithin htarget trivial token) fun n _ => by
      rw [h.manager, h.asked]
  refine ⟨congrArg (Ending.told op.reply) hending, hafter, ?_, ?_⟩
  · exact hn'.manager.trans (h.manager.trans hn.manager.symm)
  · exact hn'.asked.trans ((congrArg (· + n.asked) h.asked).trans hn.asked.symm)

/-- Operations on one record each do the same in worlds that are interchangeable. -/
theorem Interchangeable.performAll (h : Interchangeable w v) (hw : w.IsFair)
    {ops : List Operation} (htargets : ∀ op ∈ ops, op.target? ≠ none)
    (hsucceed : w.AllSucceed token ops) :
    v.AllSucceed token ops ∧ Interchangeable (w.performAll token ops) (v.performAll token ops) := by
  induction ops generalizing w v with
  | nil => exact ⟨fun _ htold => (nomatch htold), h⟩
  | cons op rest ih =>
    obtain ⟨htarget, hrest⟩ := List.forall_mem_cons.mp htargets
    obtain ⟨id, hid⟩ := Option.ne_none_iff_exists'.mp htarget
    obtain ⟨hfirst, hothers⟩ := allSucceed_cons.mp hsucceed
    obtain ⟨htold, hafter⟩ : v.replyTo token op = w.replyTo token op ∧
        Interchangeable (w.perform token op) (v.perform token op) := h.perform hw hid
    obtain ⟨hothers', hend⟩ := ih hafter (hw.run _) hrest hothers
    exact ⟨allSucceed_cons.mpr ⟨htold ▸ hfirst, hothers'⟩, hend⟩

/-- Two procedures that have to do with different records and succeed one after the other do so in
the other order too, and the world in the end may stand for the one there was. -/
theorem swap_of_success {ids ids' : String → Prop} {p : Procedure (Except Failure α)}
    {q : Procedure (Except Failure β)} {a : α} {b : β} (hw : w.IsFair) (hp : p.StaysWithin ids)
    (hq : q.StaysWithin ids') (hapart : ∀ i, ids i → ¬ ids' i) (hheeds : p.HeedsManager)
    (hheeds' : q.HeedsManager) (hfirst : w.run p = (.finished (.ok a), v))
    (hsecond : v.run q = (.finished (.ok b), u)) :
    ∃ v' u', w.run q = (.finished (.ok b), v') ∧ v'.run p = (.finished (.ok a), u') ∧
      Interchangeable u u' := by
  have hbefore := alikeOn_run hp w
  have hafter := alikeOn_run hq v
  have hv : v.IsFair := by simpa only [hfirst] using hw.run p
  obtain ⟨n, hn⟩ := w.adds_run p
  obtain ⟨m, hm⟩ := v.adds_run q
  simp only [hfirst] at hbefore hn
  simp only [hsecond] at hafter hm
  -- all that the device manager was asked it has accepted
  have haccepted (i : Nat) (hfrom : w.asked ≤ i) (hto : i < u.asked) : w.manager i = .accepted := by
    by_cases hi : i < v.asked
    · exact accepted_of_success hheeds hfirst hfrom hi
    · rw [← hn.manager]
      exact accepted_of_success hheeds' hsecond (Nat.le_of_not_lt hi) hto
  have hvasked := hn.asked
  have huasked := hm.asked
  obtain ⟨hending, halike, m', hm', hsame'⟩ := hbefore.symm.runsTheSame hv
    (hq.mono fun i hi hi' => hapart i hi' hi) fun i hi => by
      replace hi : v.asked + i < u.asked := by simpa only [hsecond] using hi
      rw [hn.manager, haccepted _ (by omega) (by omega),
        haccepted _ (by omega) (by omega)]
  rcases hrun : w.run q with ⟨ending, v'⟩
  have hbefore' := alikeOn_run hq w
  simp only [hrun, hsecond] at hending halike hm' hsame' hbefore'
  obtain rfl : ending = .finished (.ok b) := hending
  obtain ⟨hending, halike', n', hn', hsame⟩ := hbefore'.runsTheSame hw (hp.mono hapart)
    fun i hi => by
      replace hi : w.asked + i < v.asked := by simpa only [hfirst] using hi
      have hmasked := hm'.asked
      rw [hsame'.manager, hsame'.asked, haccepted _ (by omega) (by omega),
        haccepted _ (by omega) (by omega)]
  rcases hrun' : v'.run p with ⟨ending, u'⟩
  have hkept := alikeOn_run hp v'
  simp only [hrun', hfirst] at hending halike' hn' hsame hkept
  obtain rfl : ending = .finished (.ok a) := hending
  refine ⟨v', u', rfl, hrun', ?_, ?_, ?_⟩
  · exact .of_both hapart halike.symm hkept hafter halike'
  · rw [hsame.manager, hsame'.manager, hm.manager, hn.manager]
  · rw [hsame.asked, hsame'.asked, hm'.asked, hn'.asked]
    omega

/-- An operation of which a success is told has succeeded. -/
theorem exists_of_replyTo {op : Operation} (hsucceeds : (w.replyTo token op).isSuccess = true) :
    ∃ a, w.run (op.procedure token) = (.finished (.ok a), w.perform token op) := by
  rw [replyTo, Ending.isSuccess_told] at hsucceeds
  obtain ⟨a, ha⟩ := Ending.exists_of_isSuccess hsucceeds
  exact ⟨a, Prod.ext ha rfl⟩

/-- Operations on different records that all succeed one after the other do so in every order,
and the worlds in the end may stand for one another. -/
theorem performAll_of_perm {ops ops' : List Operation} (hperm : ops.Perm ops') (hw : w.IsFair)
    (htargets : ∀ op ∈ ops, op.target? ≠ none) (hapart : (ops.map Operation.target?).Nodup)
    (hsucceed : w.AllSucceed token ops) :
    w.AllSucceed token ops' ∧
      Interchangeable (w.performAll token ops) (w.performAll token ops') := by
  induction hperm generalizing w with
  | nil => exact ⟨hsucceed, .refl _⟩
  | cons op _ ih =>
    obtain ⟨hfirst, hothers⟩ := allSucceed_cons.mp hsucceed
    obtain ⟨-, htargets⟩ := List.forall_mem_cons.mp htargets
    obtain ⟨hothers', hend⟩ := ih (hw.run _) htargets (List.nodup_cons.mp hapart).2 hothers
    exact ⟨allSucceed_cons.mpr ⟨hfirst, hothers'⟩, hend⟩
  | swap second first rest =>
    obtain ⟨hfirst, hothers⟩ := allSucceed_cons.mp hsucceed
    obtain ⟨hsecond, hrest⟩ := allSucceed_cons.mp hothers
    obtain ⟨htarget, htargets⟩ := List.forall_mem_cons.mp htargets
    obtain ⟨htarget', htargets⟩ := List.forall_mem_cons.mp htargets
    obtain ⟨id, hid⟩ := Option.ne_none_iff_exists'.mp htarget
    obtain ⟨id', hid'⟩ := Option.ne_none_iff_exists'.mp htarget'
    have hne : id ≠ id' := by
      rintro rfl
      simp [hid, hid'] at hapart
    obtain ⟨a, ha⟩ := exists_of_replyTo hfirst
    obtain ⟨b, hb⟩ := exists_of_replyTo hsecond
    obtain ⟨v, u, hv, hu, hsame⟩ := swap_of_success hw (first.staysWithin hid (Eq.refl id) token)
      (second.staysWithin hid' (Eq.refl id') token) (fun i hi hi' => hne (hi.trans hi'.symm))
      (first.heedsManager hid token) (second.heedsManager hid' token) ha hb
    obtain ⟨hrest', hend⟩ := hsame.performAll ((hw.run _).run _) htargets hrest
    have hfirst' : w.perform token second = v := congrArg Prod.snd hv
    have hsecond' : v.perform token first = u := congrArg Prod.snd hu
    rw [← hsecond', ← hfirst'] at hrest' hend
    refine ⟨allSucceed_cons.mpr ⟨?_, allSucceed_cons.mpr ⟨?_, hrest'⟩⟩, hend⟩
    · rw [replyTo, hv]
      rfl
    · rw [hfirst', replyTo, hu]
      rfl
  | trans hperm _ ih ih' =>
    obtain ⟨hsucceed, hend⟩ := ih hw htargets hapart hsucceed
    obtain ⟨hsucceed, hend'⟩ := ih' hw (fun op hop => htargets op (hperm.mem_iff.mpr hop))
      ((hperm.map _).nodup_iff.mp hapart) hsucceed
    exact ⟨hsucceed, hend.trans hend'⟩

/-! ## Batches -/

/-- What is told of the first of some occasions is what would be told if there were no more. -/
theorem mem_replies_of_front {told : Ending (Except Failure Reply)} {first : List Operation}
    (rest : List Operation) (htold : told ∈ w.replies (first.map (.request token))) :
    told ∈ w.replies ((first ++ rest).map (.request token)) := by
  induction first generalizing w with
  | nil => cases htold
  | cons op first ih =>
    rcases List.mem_cons.mp htold with rfl | htold
    · exact List.mem_cons_self
    · exact List.mem_cons_of_mem _ (ih htold)

/-- An operation succeeds if all of its parts do one after the other, and then it leaves the
world that they leave. -/
theorem succeeds_iff_parts (w : World) (token : Token) (op : Operation) :
    ((w.replyTo token op).isSuccess = true ↔ w.AllSucceed token op.parts) ∧
      ((w.replyTo token op).isSuccess = true →
        w.perform token op = w.performAll token op.parts) := by
  by_cases hbatch : op.parts = [op]
  · rw [hbatch]
    exact ⟨by simp [AllSucceed, replies], fun _ => rfl⟩
  · obtain ⟨attempted, skipped, hparts, hworld, -, htold⟩ := w.attempts_parts token hbatch
    rw [hparts]
    rcases htold with ⟨rfl, told, result, htold, -, hrun⟩ | ⟨told, last, htold, hlast, hrun⟩
    · rw [List.append_nil, AllSucceed, htold]
      refine ⟨iff_of_true (by rw [replyTo, hrun]; rfl) ?_, fun _ => hworld⟩
      intro e he
      obtain ⟨reply, -, rfl⟩ := List.mem_map.mp he
      rfl
    · have hfails : ¬ (w.replyTo token op).isSuccess = true := by
        rw [replyTo, hrun, hlast]
        exact Bool.false_ne_true
      refine ⟨iff_of_false hfails fun hsucceed => ?_, fun h => absurd h hfails⟩
      have hmem : last ∈ w.replies (attempted.map (.request token)) := by
        rw [htold]
        exact List.mem_append_right _ (List.mem_singleton_self last)
      have hlast' := hsucceed last (mem_replies_of_front skipped hmem)
      rw [hlast] at hlast'
      cases hlast'

/-- A batch on different records that succeeds does so with its parts in any other order, and what
is stored in the end is the same. -/
theorem IsFair.batch_of_perm (hw : w.IsFair) {op op' : Operation} {ids : List String}
    (htargets : op.parts.map Operation.target? = ids.map some) (hids : ids.Nodup)
    (hperm : op.parts.Perm op'.parts) (hsucceeds : (w.replyTo token op).isSuccess = true) :
    (w.replyTo token op').isSuccess = true ∧
      (w.perform token op').store = (w.perform token op).store := by
  obtain ⟨hiff, hworld⟩ := w.succeeds_iff_parts token op
  obtain ⟨hiff', hworld'⟩ := w.succeeds_iff_parts token op'
  have hnamed : ∀ part ∈ op.parts, part.target? ≠ none := by
    intro part hpart hnone
    have hmem : none ∈ ids.map some := htargets ▸ hnone ▸ List.mem_map_of_mem hpart
    simp at hmem
  have hapart : (op.parts.map Operation.target?).Nodup :=
    htargets ▸ hids.map (Option.some_injective _)
  obtain ⟨hsucceed', hsame⟩ := performAll_of_perm hperm hw hnamed hapart (hiff.mp hsucceeds)
  have hsucceeds' := hiff'.mpr hsucceed'
  refine ⟨hsucceeds', ?_⟩
  rw [hworld hsucceeds, hworld' hsucceeds']
  exact hsame.alike.store_eq

/-- **Operations on different records commute.** Where the store serves every call, two operations
that are about different records, with the same answers of the device manager about each of them,
are told the same in either order, and the same is stored, noticed, adopted and put off in the
end. A record that is hidden or shown and then hidden or shown again is as if only the latter had
been asked for. So a batch about different records that succeeds also does with its parts in any
other order, and leaves the same store. -/
theorem operations_on_different_records_commute (w : World) (hfair : w.IsFair) :
    (∀ (e e' : Errand) (id id' : String), e.operation.target? = some id →
      e'.operation.target? = some id' → id ≠ id' → w.Commute e e') ∧
    (∀ (token : Token) (id : String),
      ((w.perform token (.hide id)).perform token (.hide id)).store =
        (w.perform token (.hide id)).store ∧
      ((w.perform token (.show id)).perform token (.hide id)).store =
        (w.perform token (.hide id)).store ∧
      ((w.perform token (.hide id)).perform token (.show id)).store =
        (w.perform token (.show id)).store) ∧
    ∀ (token : Token) (op op' : Operation) (ids : List String),
      op.parts.map Operation.target? = ids.map some → ids.Nodup → op.parts.Perm op'.parts →
      (w.replyTo token op).isSuccess = true →
      (w.replyTo token op').isSuccess = true ∧
        (w.perform token op').store = (w.perform token op).store := by
  refine ⟨fun e e' id id' hid hid' hne => hfair.commute hid hid' hne, fun token id => ?_,
    fun token op op' ids htargets hids hperm hsucceeds =>
      hfair.batch_of_perm htargets hids hperm hsucceeds⟩
  exact ⟨hfair.setHidden_setHidden token id true true,
    hfair.setHidden_setHidden token id false true, hfair.setHidden_setHidden token id true false⟩

/-- A desk with two lamps of a user. -/
def twoLamps : World :=
  let lamp (id : String) : Device := { Device.named id "lamp" with userId := "alice" }
  { service := { store := (Store.empty.insert (lamp "d1")).insert (lamp "d2") } }

/-- One lamp is used and the other hidden in either order, and both are used in either order. -/
theorem two_lamps_in_either_order :
    let token : Token := ⟨"", "alice", Time.Instant.epoch⟩
    twoLamps.IsFair ∧
    twoLamps.Commute ⟨token, .use "d1", .accepted⟩ ⟨token, .hide "d2", .accepted⟩ ∧
    (twoLamps.replyTo token (.useMany ["d1", "d2"])).isSuccess = true ∧
    (twoLamps.replyTo token (.useMany ["d2", "d1"])).isSuccess = true ∧
    (twoLamps.perform token (.useMany ["d2", "d1"])).store =
      (twoLamps.perform token (.useMany ["d1", "d2"])).store := by
  intro token
  obtain ⟨hcommute, -, hbatch⟩ := operations_on_different_records_commute twoLamps rfl
  have hsucceeds : (twoLamps.replyTo token (.useMany ["d1", "d2"])).isSuccess = true := rfl
  refine ⟨rfl, hcommute _ _ "d1" "d2" rfl rfl (by decide), hsucceeds, ?_⟩
  exact hbatch token (.useMany ["d1", "d2"]) (.useMany ["d2", "d1"]) ["d1", "d2"] rfl (by decide)
    (.swap ..) hsucceeds

end World

end WaitingRoom
