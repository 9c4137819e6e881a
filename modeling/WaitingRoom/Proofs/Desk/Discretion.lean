import Mathlib.Data.List.Perm.Basic
import Mathlib.Order.Defs.Unbundled
import WaitingRoom.Proofs.Desk.Replies
import WaitingRoom.Proofs.Store.Lookup

/-!
# Discretion

What belongs to others makes no difference to a user, as long as the same local ids are
taken. Of a record that belongs to somebody else the desk lets an operation see no more
than that it is there. So a row of occasions goes the same way over two stores that agree
on the user's records and on the local ids, and leaves two stores that agree again.
-/

namespace WaitingRoom

/-! ## Stores that look alike -/

/-- Whether two stores look alike to a user: they hold the same records of the user, under
the same local ids altogether. Records of others may differ in all else. -/
structure Store.AlikeTo (user : String) (s s' : Store) : Prop where
  own : ∀ d, d.userId = user → (d ∈ s.records ↔ d ∈ s'.records)
  ids : ∀ id, id ∈ s.records.map Device.localId ↔ id ∈ s'.records.map Device.localId

/-- Whether two finds look alike to a user: they are the same, or both are somebody else's. -/
def FoundAlike (user : String) (found found' : Option Device) : Prop :=
  found = found' ∨ ∃ d d', found = some d ∧ found' = some d' ∧ d.userId ≠ user ∧ d'.userId ≠ user

namespace Store

variable {user : String} {s s' : Store}

/-- Something is found under the local ids of the records and no others. -/
theorem find?_ne_none_iff {id : String} :
    s.find? id ≠ none ↔ id ∈ s.records.map Device.localId := by
  constructor
  · intro hfound
    obtain ⟨d, hd⟩ := Option.ne_none_iff_exists'.mp hfound
    exact List.mem_map.mpr ⟨d, mem_of_find? hd, localId_of_find? hd⟩
  · intro hmem
    obtain ⟨d, hd, rfl⟩ := List.mem_map.mp hmem
    rw [find?_of_mem hd]
    exact Option.some_ne_none d

/-- A record is in the store if it is found under its local id. -/
theorem mem_iff_find? {d : Device} : d ∈ s.records ↔ s.find? d.localId = some d :=
  ⟨find?_of_mem, mem_of_find?⟩

/-- Stores look alike if what is found under each local id does. -/
theorem alikeTo_iff : s.AlikeTo user s' ↔ ∀ id, FoundAlike user (s.find? id) (s'.find? id) := by
  constructor
  · intro h id
    cases hfound : s.find? id with
    | none =>
      refine .inl (Eq.symm ?_)
      by_contra hfound'
      exact find?_ne_none_iff.mpr ((h.ids id).mpr (find?_ne_none_iff.mp hfound')) hfound
    | some d =>
      obtain rfl := localId_of_find? hfound
      by_cases howner : d.userId = user
      · exact .inl (find?_of_mem ((h.own d howner).mp (mem_of_find? hfound))).symm
      · have hid : d.localId ∈ s.records.map Device.localId :=
          List.mem_map_of_mem (mem_of_find? hfound)
        obtain ⟨d', hd'⟩ := Option.ne_none_iff_exists'.mp
          (find?_ne_none_iff.mpr ((h.ids d.localId).mp hid))
        refine .inr ⟨d, d', rfl, hd', howner, fun howner' => ?_⟩
        -- The user's record in the one store is in the other, where `d` has its place.
        have hsame := find?_of_mem ((h.own d' howner').mpr (mem_of_find? hd'))
        rw [localId_of_find? hd', hfound] at hsame
        obtain rfl := Option.some.inj hsame
        exact howner howner'
  · intro h
    constructor
    · intro d howner
      rw [mem_iff_find?, mem_iff_find?]
      rcases h d.localId with hsame | ⟨e, e', he, he', hother, hother'⟩
      · rw [hsame]
      · rw [he, he']
        constructor
        · intro heq
          exact absurd (Option.some.inj heq ▸ howner) hother
        · intro heq
          exact absurd (Option.some.inj heq ▸ howner) hother'
    · intro id
      rw [← find?_ne_none_iff, ← find?_ne_none_iff]
      rcases h id with hsame | ⟨e, e', he, he', _, _⟩
      · rw [hsame]
      · simp [he, he']

/-- Stores look alike still when the same record is written to both. -/
theorem AlikeTo.insert (h : s.AlikeTo user s') (d : Device) :
    (s.insert d).AlikeTo user (s'.insert d) := by
  rw [alikeTo_iff] at h ⊢
  intro id
  rw [find?_insert, find?_insert]
  split
  · exact .inl rfl
  · exact h id

/-- Stores look alike still when the same local id is deleted in both. -/
theorem AlikeTo.erase (h : s.AlikeTo user s') (deleted : String) :
    (s.erase deleted).AlikeTo user (s'.erase deleted) := by
  rw [alikeTo_iff] at h ⊢
  intro id
  rw [find?_erase, find?_erase]
  split
  · exact .inl rfl
  · exact h id

/-- Two lists of records in ascending order are the same if they hold the same records. -/
theorem eq_of_mem_iff {l l' : List Device} (hl : l.Pairwise Device.precedes)
    (hl' : l'.Pairwise Device.precedes) (hmem : ∀ d, d ∈ l ↔ d ∈ l') : l = l' := by
  have hirrefl : ∀ {a b : Device}, a.precedes b → a ≠ b := by
    rintro a _ hlt rfl
    exact String.lt_irrefl _ hlt
  have hperm := (List.perm_ext_iff_of_nodup (hl.imp hirrefl) (hl'.imp hirrefl)).mpr hmem
  refine hperm.eq_of_pairwise ?_ hl hl'
  intro a b _ _ hab hba
  exact absurd (String.lt_trans hab hba) (String.lt_irrefl _)

/-- A listing for the user is the same in stores that look alike: nothing but the user's
records counts in it. -/
theorem AlikeTo.list_eq (h : s.AlikeTo user s') (o : ListOptions) :
    s.list user o = s'.list user o := by
  have hlisted : s.records.filter (fun d => d.isListed user o) =
      s'.records.filter (fun d => d.isListed user o) := by
    refine eq_of_mem_iff (s.sorted.filter _) (s'.sorted.filter _) fun d => ?_
    rw [List.mem_filter, List.mem_filter]
    refine and_congr_left fun hlisted => h.own d ?_
    simp only [Device.isListed, Bool.and_eq_true] at hlisted
    simpa [Device.isOwnedBy] using hlisted.1.1
  simp only [list, matching, hlisted]

end Store

/-! ## Procedures that are discreet -/

namespace Procedure

variable {α β : Type} {user : String}

/-- Whether a procedure goes on in the same way whichever record of somebody else it reads,
and lists no records but the user's. -/
def Discreet (user : String) : Procedure α → Prop
  | .done _ => True
  | .now next => ∀ t, (next t).Discreet user
  | .read _ next =>
    (∀ d d', d.userId ≠ user → d'.userId ≠ user → next (.ok d) = next (.ok d')) ∧
      ∀ r, (next r).Discreet user
  | .list listed _ next => listed = user ∧ ∀ r, (next r).Discreet user
  | .write _ next | .remove _ next | .adopt _ _ next => ∀ r, (next r).Discreet user
  | .removeLater _ next | .notify _ _ next => next.Discreet user

/-- A procedure and the one that follows are discreet together if each of them is. -/
theorem Discreet.bind {p : Procedure α} {f : α → Procedure β} (hp : p.Discreet user)
    (hf : ∀ a, (f a).Discreet user) : (p.bind f).Discreet user := by
  induction p with
  | done a => exact hf a
  | now _ ih | write _ _ ih | remove _ _ ih | adopt _ _ _ ih => exact fun r => ih r (hp r)
  | read _ next ih =>
    obtain ⟨hsame, hnext⟩ := hp
    exact ⟨fun d d' hd hd' => congrArg (·.bind f) (hsame d d' hd hd'), fun r => ih r (hnext r)⟩
  | list _ _ _ ih => exact ⟨hp.1, fun r => ih r (hp.2 r)⟩
  | removeLater _ _ ih | notify _ _ _ ih => exact ih hp

/-- So are a procedure and the one that follows its success. -/
theorem Discreet.andThen {p : Procedure (Except Failure α)}
    {f : α → Procedure (Except Failure β)} (hp : p.Discreet user)
    (hf : ∀ a, (f a).Discreet user) : (p.andThen f).Discreet user := by
  refine hp.bind fun r => ?_
  cases r with
  | ok a => exact hf a
  | error _ => trivial

/-- A batch is discreet if what it does for each of its items is. -/
theorem Discreet.each {p : α → Procedure (Except Failure β)} (hp : ∀ a, (p a).Discreet user)
    (items : List α) : (Procedure.each p items).Discreet user := by
  induction items with
  | nil => trivial
  | cons a rest ih => exact (hp a).andThen fun _ => ih.andThen fun _ => trivial

end Procedure

namespace Desk

variable {token : Token}

/-- Reading a record that must be the caller's is discreet: the failure names nothing but
the local id that was asked for. -/
theorem readOwned_discreet (id : String) : (readOwned token id).Discreet token.userId := by
  refine ⟨fun d d' hd hd' => ?_, fun _ => trivial⟩
  simp [owned, Device.isOwnedBy, hd, hd']

/-- Writing a record is discreet. -/
theorem store_discreet (d : Device) (id : String) :
    (store token.userId d id).Discreet token.userId := by
  intro r
  cases r <;> trivial

/-- Deleting a record is discreet. -/
theorem discard_discreet (id : String) (change : Change) :
    (discard token.userId id change).Discreet token.userId := by
  intro r
  cases r <;> trivial

/-- Writing a record for a payload is discreet: where the record of somebody else is in
the way, it is reported missing. -/
theorem set_discreet (payload : Device) : (set token payload).Discreet token.userId := by
  unfold set
  split
  · trivial
  · refine fun now => ⟨fun d d' hd hd' => ?_, fun found => ?_⟩
    · simp [prepared, Device.isOwnedBy, hd, hd']
    · dsimp only
      split
      · trivial
      · exact (store_discreet _ _).andThen fun _ => trivial

/-- Having a record adopted is discreet. -/
theorem use_discreet (id : String) : (use token id).Discreet token.userId := by
  refine (readOwned_discreet id).andThen fun d r => ?_
  cases r with
  | ok _ => exact discard_discreet id .use
  | error _ => trivial

/-- Deleting one of the caller's records is discreet. -/
theorem delete_discreet (id : String) : (delete token id).Discreet token.userId :=
  (readOwned_discreet id).andThen fun _ => discard_discreet id .delete

/-- Hiding or showing one of the caller's records is discreet. -/
theorem setHidden_discreet (hidden : Bool) (id : String) :
    (setHidden token hidden id).Discreet token.userId :=
  (readOwned_discreet id).andThen fun _ => store_discreet _ id

/-- A batch whose results are forgotten is discreet if what it does for each item is. -/
theorem forget_each_discreet {α β : Type} {p : α → Procedure (Except Failure β)}
    (hp : ∀ a, (p a).Discreet token.userId) (items : List α) :
    (forget (Procedure.each p items)).Discreet token.userId :=
  (Procedure.Discreet.each hp items).andThen fun _ => trivial

end Desk

/-- Whatever the desk does for an operation is discreet. -/
theorem Operation.procedure_discreet (token : Token) (op : Operation) :
    (op.procedure token).Discreet token.userId := by
  cases op with
  | list _ => exact ⟨rfl, fun _ => trivial⟩
  | read id => exact Desk.readOwned_discreet id
  | set payload => exact Desk.set_discreet payload
  | use id => exact Desk.use_discreet id
  | delete id => exact Desk.delete_discreet id
  | hide id => exact Desk.setHidden_discreet true id
  | «show» id => exact Desk.setHidden_discreet false id
  | setMany payloads => exact .each Desk.set_discreet payloads
  | useMany ids => exact Desk.forget_each_discreet Desk.use_discreet ids
  | deleteMany ids => exact Desk.forget_each_discreet Desk.delete_discreet ids
  | hideMany ids => exact Desk.forget_each_discreet (Desk.setHidden_discreet true) ids
  | showMany ids => exact Desk.forget_each_discreet (Desk.setHidden_discreet false) ids

/-! ## Runs over stores that look alike -/

namespace World

variable {α : Type} {user : String} {w w' : World}

/-- The same desk over other contents of its store. -/
def holding (w : World) (contents : Store) : World :=
  { w with service := { w.service with store := contents } }

/-- Whether a world is another one over contents that look alike to a user. -/
def AlikeTo (user : String) (w w' : World) : Prop :=
  ∃ contents, w' = w.holding contents ∧ w.store.AlikeTo user contents

/-- A call goes the same way over contents that look alike, and leaves contents that look
alike if serving it does. Its answer is the same, or what either store has to say. -/
theorem answer_alike {β : Type} {s : StoreService} {t u u' : Store} (call : StoreCall)
    (r r' : Except Failure β) (hkept : s.store.AlikeTo user t) (hserved : u.AlikeTo user u') :
    let here := s.answer call (r, u)
    let there := ({ s with store := t } : StoreService).answer call (r', u')
    (∃ t', there.2 = { here.2 with store := t' } ∧ here.2.store.AlikeTo user t') ∧
      (there.1 = here.1 ∨ here.1 = some r ∧ there.1 = some r') := by
  intro here there
  have hnext : ({ s with store := t } : StoreService).next call = s.next call := rfl
  simp only [here, there, StoreService.answer, hnext]
  cases s.next call with
  | served => exact ⟨⟨u', rfl, hserved⟩, .inr ⟨rfl, rfl⟩⟩
  | failed => exact ⟨⟨t, rfl, hkept⟩, .inl rfl⟩
  | hanging => exact ⟨⟨t, rfl, hkept⟩, .inl rfl⟩

/-- A read is answered the same in worlds that look alike, or with a record of somebody
else in both. -/
theorem AlikeTo.readCall (h : AlikeTo user w w') (id : String) :
    AlikeTo user (w.readCall id).2 (w'.readCall id).2 ∧
      ((w'.readCall id).1 = (w.readCall id).1 ∨
        ∃ d d', (w.readCall id).1 = some (.ok d) ∧ (w'.readCall id).1 = some (.ok d') ∧
          d.userId ≠ user ∧ d'.userId ≠ user) := by
  obtain ⟨t, rfl, ht⟩ := h
  obtain ⟨⟨t', hthere, ht'⟩, hanswer⟩ :=
    answer_alike .read (w.store.read id) (t.read id) ht ht
  refine ⟨⟨t', ?_, ht'⟩, ?_⟩
  · exact congrArg (fun service => { w with service }) hthere
  · rcases hanswer with hsame | ⟨hhere, hthere⟩
    · exact .inl hsame
    · rcases Store.alikeTo_iff.mp ht id with hfound | ⟨d, d', hd, hd', hother, hother'⟩
      · refine .inl (hthere.trans ?_)
        refine Eq.trans ?_ hhere.symm
        simp only [Store.read, hfound]
      · refine .inr ⟨d, d', hhere.trans ?_, hthere.trans ?_, hother, hother'⟩
        · simp only [Store.read, hd]
        · simp only [Store.read, hd']

/-- A write is answered the same in worlds that look alike. -/
theorem AlikeTo.writeCall (h : AlikeTo user w w') (d : Device) :
    AlikeTo user (w.writeCall d).2 (w'.writeCall d).2 ∧
      (w'.writeCall d).1 = (w.writeCall d).1 := by
  obtain ⟨t, rfl, ht⟩ := h
  obtain ⟨⟨t', hthere, ht'⟩, hanswer⟩ := answer_alike .write (.ok ()) (.ok ()) ht (ht.insert d)
  refine ⟨⟨t', congrArg (fun service => { w with service }) hthere, ht'⟩, ?_⟩
  rcases hanswer with hsame | ⟨hhere, hthere⟩
  · exact hsame
  · exact hthere.trans hhere.symm

/-- A deletion is answered the same in worlds that look alike. -/
theorem AlikeTo.removeCall (h : AlikeTo user w w') (id : String) :
    AlikeTo user (w.removeCall id).2 (w'.removeCall id).2 ∧
      (w'.removeCall id).1 = (w.removeCall id).1 := by
  obtain ⟨t, rfl, ht⟩ := h
  obtain ⟨⟨t', hthere, ht'⟩, hanswer⟩ := answer_alike .remove (.ok ()) (.ok ()) ht (ht.erase id)
  refine ⟨⟨t', congrArg (fun service => { w with service }) hthere, ht'⟩, ?_⟩
  rcases hanswer with hsame | ⟨hhere, hthere⟩
  · exact hsame
  · exact hthere.trans hhere.symm

/-- A listing for the user is the same in worlds that look alike. -/
theorem AlikeTo.listCall (h : AlikeTo user w w') (o : ListOptions) :
    AlikeTo user (w.listCall user o).2 (w'.listCall user o).2 ∧
      (w'.listCall user o).1 = (w.listCall user o).1 := by
  obtain ⟨t, rfl, ht⟩ := h
  obtain ⟨⟨t', hthere, ht'⟩, hanswer⟩ :=
    answer_alike .list (w.store.list user o) (t.list user o) ht ht
  refine ⟨⟨t', congrArg (fun service => { w with service }) hthere, ht'⟩, ?_⟩
  rcases hanswer with hsame | ⟨hhere, hthere⟩
  · exact hsame
  · have hlisted := congrArg some (ht.list_eq o)
    exact hthere.trans (hlisted.symm.trans hhere.symm)

/-- The device manager answers the same in worlds that look alike. -/
theorem AlikeTo.adoptCall (h : AlikeTo user w w') (t : Token) (d : Device) :
    AlikeTo user (w.adoptCall t d).2 (w'.adoptCall t d).2 ∧
      (w'.adoptCall t d).1 = (w.adoptCall t d).1 := by
  obtain ⟨contents, rfl, halike⟩ := h
  have hmanager : (w.holding contents).manager (w.holding contents).asked =
      w.manager w.asked := rfl
  unfold World.adoptCall
  rw [hmanager]
  split <;> exact ⟨⟨contents, rfl, halike⟩, rfl⟩

/-- Worlds look alike still when a removal is put off in both. -/
theorem AlikeTo.removeLater (h : AlikeTo user w w') (id : String) :
    AlikeTo user (w.removeLater id) (w'.removeLater id) := by
  obtain ⟨contents, rfl, halike⟩ := h
  have hwait : (w.holding contents).wait = w.wait := rfl
  unfold World.removeLater
  rw [hwait]
  split <;> exact ⟨contents, rfl, halike⟩

/-- Worlds look alike still when the same notice is given in both. -/
theorem AlikeTo.notify (h : AlikeTo user w w') (noticed : String) (e : Event) :
    AlikeTo user (w.notify noticed e) (w'.notify noticed e) := by
  obtain ⟨contents, rfl, halike⟩ := h
  exact ⟨contents, rfl, halike⟩

/-- What two runs have in common that a user cannot tell apart: they end in the same way,
in worlds that look alike, after the same calls. -/
structure RunsAlike (user : String) (p : Procedure α) (w w' : World) : Prop where
  ending : (w'.run p).1 = (w.run p).1
  after : AlikeTo user (w.run p).2 (w'.run p).2
  calls : (w'.calls p).map Moment.call = (w.calls p).map Moment.call

/-- A procedure that begins with a call runs alike in worlds that look alike, if they look
alike after the call and the procedure goes on in the same way and runs alike from there. -/
theorem runsAlike_of_call {ρ : Type} {p : Procedure α} {next : ρ → Procedure α} {call : Call}
    (ask : World → Option ρ × World)
    (hanswered : ∀ w r v, ask w = (some r, v) →
      run p w = run (next r) v ∧ calls p w = ⟨w, call⟩ :: calls (next r) v)
    (hhung : ∀ w v, ask w = (none, v) → run p w = (.hung, v) ∧ calls p w = [⟨w, call⟩])
    (hafter : AlikeTo user (ask w).2 (ask w').2)
    (hanswer : (ask w').1 = (ask w).1 ∨
      ∃ r r', (ask w).1 = some r ∧ (ask w').1 = some r' ∧ next r' = next r)
    (hnext : ∀ r {w w'}, AlikeTo user w w' → RunsAlike user (next r) w w') :
    RunsAlike user p w w' := by
  rcases hhere : ask w with ⟨answer, v⟩
  rcases hthere : ask w' with ⟨answer', v'⟩
  rw [hhere, hthere] at hafter hanswer
  have hgoes : (∃ r r', answer = some r ∧ answer' = some r' ∧ next r' = next r) ∨
      (answer = none ∧ answer' = none) := by
    rcases hanswer with hsame | hdiffer
    · obtain rfl : answer' = answer := hsame
      cases answer' with
      | none => exact .inr ⟨rfl, rfl⟩
      | some r => exact .inl ⟨r, r, rfl, rfl, rfl⟩
    · exact .inl hdiffer
  rcases hgoes with ⟨r, r', rfl, rfl, hgoes⟩ | ⟨rfl, rfl⟩
  · obtain ⟨hrun, hcalls⟩ := hanswered w r v hhere
    obtain ⟨hrun', hcalls'⟩ := hanswered w' r' v' hthere
    obtain ⟨hending, hrest, hrestCalls⟩ := hnext r hafter
    rw [hgoes] at hrun' hcalls'
    constructor
    · rw [hrun, hrun']
      exact hending
    · rw [hrun, hrun']
      exact hrest
    · rw [hcalls, hcalls']
      exact congrArg (call :: ·) hrestCalls
  · obtain ⟨hrun, hcalls⟩ := hhung w v hhere
    obtain ⟨hrun', hcalls'⟩ := hhung w' v' hthere
    constructor
    · rw [hrun, hrun']
    · rw [hrun, hrun']
      exact hafter
    · rw [hcalls, hcalls']
      rfl

/-- A discreet procedure runs alike in worlds that look alike. -/
theorem AlikeTo.runsAlike {p : Procedure α} (hp : p.Discreet user) (h : AlikeTo user w w') :
    RunsAlike user p w w' := by
  induction p generalizing w w' with
  | done a => exact ⟨rfl, h, rfl⟩
  | now next ih =>
    have hclock : w'.clock = w.clock := by
      obtain ⟨contents, rfl, _⟩ := h
      rfl
    obtain ⟨hending, hafter, hcalls⟩ := ih w.clock (hp w.clock) h
    constructor
    · simpa only [run, hclock] using hending
    · simpa only [run, hclock] using hafter
    · simpa only [calls, List.map_cons, hclock] using congrArg (Call.now :: ·) hcalls
  | removeLater id next ih =>
    obtain ⟨hending, hafter, hcalls⟩ := ih hp (h.removeLater id)
    exact ⟨hending, hafter, congrArg (Call.removeLater id :: ·) hcalls⟩
  | notify noticed e next ih =>
    obtain ⟨hending, hafter, hcalls⟩ := ih hp (h.notify noticed e)
    exact ⟨hending, hafter, congrArg (Call.notify noticed e :: ·) hcalls⟩
  | read id next ih =>
    obtain ⟨hsame, hnext⟩ := hp
    obtain ⟨hafter, hanswer⟩ := h.readCall id
    refine runsAlike_of_call (World.readCall · id)
      (fun _ _ _ h => ⟨by rw [run, h], by rw [calls, h]⟩)
      (fun _ _ h => ⟨by rw [run, h], by rw [calls, h]⟩) hafter ?_
      fun r => ih r (hnext r)
    rcases hanswer with hanswer | ⟨d, d', hd, hd', hother, hother'⟩
    · exact .inl hanswer
    · exact .inr ⟨_, _, hd, hd', hsame d' d hother' hother⟩
  | write d next ih =>
    obtain ⟨hafter, hanswer⟩ := h.writeCall d
    exact runsAlike_of_call (World.writeCall · d)
      (fun _ _ _ h => ⟨by rw [run, h], by rw [calls, h]⟩)
      (fun _ _ h => ⟨by rw [run, h], by rw [calls, h]⟩) hafter
      (.inl hanswer) fun r => ih r (hp r)
  | remove id next ih =>
    obtain ⟨hafter, hanswer⟩ := h.removeCall id
    exact runsAlike_of_call (World.removeCall · id)
      (fun _ _ _ h => ⟨by rw [run, h], by rw [calls, h]⟩)
      (fun _ _ h => ⟨by rw [run, h], by rw [calls, h]⟩) hafter
      (.inl hanswer) fun r => ih r (hp r)
  | list listed o next ih =>
    obtain ⟨rfl, hnext⟩ := hp
    obtain ⟨hafter, hanswer⟩ := h.listCall o
    exact runsAlike_of_call (World.listCall · listed o)
      (fun _ _ _ h => ⟨by rw [run, h], by rw [calls, h]⟩)
      (fun _ _ h => ⟨by rw [run, h], by rw [calls, h]⟩) hafter
      (.inl hanswer) fun r => ih r (hnext r)
  | adopt token d next ih =>
    obtain ⟨hafter, hanswer⟩ := h.adoptCall token d
    exact runsAlike_of_call (World.adoptCall · token d)
      (fun _ _ _ h => ⟨by rw [run, h], by rw [calls, h]⟩)
      (fun _ _ h => ⟨by rw [run, h], by rw [calls, h]⟩) hafter
      (.inl hanswer) fun r => ih r (hp r)

/-- Worlds look alike still when removals that are due are carried out in both. -/
theorem AlikeTo.foldl_carryOut (h : AlikeTo user w w') (rs : List Removal) :
    AlikeTo user (rs.foldl carryOut w) (rs.foldl carryOut w') := by
  induction rs generalizing w w' with
  | nil => exact h
  | cons r rest ih => exact ih (h.removeCall r.localId).1

/-- Worlds look alike still when the same time has passed in both. -/
theorem AlikeTo.pass (h : AlikeTo user w w') (millis : Nat) :
    AlikeTo user (w.pass millis) (w'.pass millis) := by
  obtain ⟨contents, rfl, halike⟩ := h
  refine AlikeTo.foldl_carryOut ?_ _
  exact ⟨contents, rfl, halike⟩

end World

/-- Whether an occasion is a user's own request, or nobody's. -/
def Occasion.IsOwn (user : String) : Occasion → Prop
  | .request token _ => token.userId = user
  | .setClock _ | .pass _ => True

namespace World

/-- What a user asks for goes the same way in worlds that look alike to the user. -/
theorem AlikeTo.meet (h : AlikeTo user w w') {o : Occasion} (hown : o.IsOwn user) :
    AlikeTo user (w.meet o) (w'.meet o) := by
  cases o with
  | request token op =>
    obtain rfl : token.userId = user := hown
    exact (h.runsAlike (op.procedure_discreet token)).after
  | setClock now =>
    obtain ⟨contents, rfl, halike⟩ := h
    exact ⟨contents, rfl, halike⟩
  | pass millis => exact h.pass millis

/-- What a user asks for along a row of occasions is answered the same in worlds that look
alike, by the same calls, and leaves worlds that look alike. -/
theorem AlikeTo.meetAll (h : AlikeTo user w w') {occasions : List Occasion}
    (hown : ∀ o ∈ occasions, o.IsOwn user) :
    w'.replies occasions = w.replies occasions ∧
      w'.callsAlong occasions = w.callsAlong occasions ∧
      AlikeTo user (w.meetAll occasions) (w'.meetAll occasions) := by
  induction occasions generalizing w w' with
  | nil => exact ⟨rfl, rfl, h⟩
  | cons o rest ih =>
    obtain ⟨hfirst, hrest⟩ := List.forall_mem_cons.mp hown
    obtain ⟨hreplies, hcalls, hafter⟩ := ih (h.meet hfirst) hrest
    refine ⟨?_, ?_, hafter⟩
    · cases o with
      | request token op =>
        obtain rfl : token.userId = user := hfirst
        have hending := (h.runsAlike (op.procedure_discreet token)).ending
        have hreply : w'.replyTo token op = w.replyTo token op := by
          rw [replyTo, replyTo, hending]
        exact List.cons_eq_cons.mpr ⟨hreply, hreplies⟩
      | setClock now => exact hreplies
      | pass millis => exact hreplies
    · cases o with
      | request token op =>
        obtain rfl : token.userId = user := hfirst
        have hmade := (h.runsAlike (op.procedure_discreet token)).calls
        exact congrArg₂ (· ++ ·) hmade hcalls
      | setClock now => exact hcalls
      | pass millis => exact hcalls

end World

/-- **Discretion.** Over two contents of the store that hold the same records of a user
under the same local ids altogether, whatever the user asks for in a row of occasions is
told the same, by the same calls to the store and to the device manager; the same notice
is given and the same devices are adopted; and the contents hold the same records of the
user under the same local ids afterwards. Which calls fail or hang, how the device manager
answers and what the clock shows is the same in both, but arbitrary. -/
theorem others_unseen (w : World) (contents : Store) (user : String)
    (occasions : List Occasion) (halike : w.store.AlikeTo user contents)
    (hown : ∀ o ∈ occasions, o.IsOwn user) :
    let w' := w.holding contents
    w'.replies occasions = w.replies occasions ∧
    w'.callsAlong occasions = w.callsAlong occasions ∧
    (w'.meetAll occasions).notices = (w.meetAll occasions).notices ∧
    (w'.meetAll occasions).adopted = (w.meetAll occasions).adopted ∧
    (w.meetAll occasions).store.AlikeTo user (w'.meetAll occasions).store := by
  intro w'
  have hworlds : World.AlikeTo user w w' := ⟨contents, rfl, halike⟩
  obtain ⟨hreplies, hcalls, contents', hafter, halike'⟩ := hworlds.meetAll hown
  refine ⟨hreplies, hcalls, ?_, ?_, ?_⟩
  · rw [hafter]
    rfl
  · rw [hafter]
    rfl
  · rw [hafter]
    exact halike'

/-- A store with a device of one user and a lamp of another. -/
def sharedShelf (owner name : String) : Store :=
  (Store.empty.insert { Device.named "d1" "" with userId := "alice" }).insert
    { Device.named "d2" name with userId := owner }

/-- To the one user it makes no difference whose lamp it is and what it is called. -/
theorem sharedShelf_alike :
    (sharedShelf "bob" "lamp").AlikeTo "alice" (sharedShelf "carol" "") := by
  refine Store.alikeTo_iff.mpr fun id => ?_
  simp only [sharedShelf, Store.find?_insert]
  by_cases hid : "d2" = id
  · exact .inr ⟨_, _, if_pos hid, if_pos hid, by decide, by decide⟩
  · exact .inl ((if_neg hid).trans (if_neg hid).symm)

/-- A token of the one user. -/
def aliceToken : Token := ⟨"Bearer alice", "alice", Time.Instant.epoch⟩

/-- The user lists what there is, tries to read and to write over the lamp, and has the own
device adopted. -/
def curiousUser : List Occasion :=
  [.request aliceToken (.list {}), .request aliceToken (.read "d2"),
   .request aliceToken (.set (Device.named "d2" "")), .request aliceToken (.use "d1")]

/-- Nothing that the user is told gives away whose lamp it is. -/
theorem curious_user_learns_nothing :
    (sharedShelf "bob" "lamp").AlikeTo "alice" (sharedShelf "carol" "") ∧
    (∀ o ∈ curiousUser, o.IsOwn "alice") ∧
    (({ service := { store := sharedShelf "carol" "" } } : World).replies curiousUser =
      ({ service := { store := sharedShelf "bob" "lamp" } } : World).replies curiousUser) := by
  have hown : ∀ o ∈ curiousUser, o.IsOwn "alice" := by
    simp [curiousUser, Occasion.IsOwn, aliceToken]
  exact ⟨sharedShelf_alike, hown,
    (others_unseen { service := { store := sharedShelf "bob" "lamp" } } _ "alice" curiousUser
      sharedShelf_alike hown).1⟩

end WaitingRoom
