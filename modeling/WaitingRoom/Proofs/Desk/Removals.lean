import WaitingRoom.Proofs.Desk.Isolation

/-!
# How records leave the store

A record leaves the store when its owner has it adopted or deletes it, or when a
removal falls due that was put off by an earlier adoption under the same local id. A
removal that falls due does not ask whose record it finds: if the local id has passed to
another user by then, it is that user's record that goes.
-/

namespace WaitingRoom

namespace World

/-- Whether a removal was put off in the course of some occasions by an adoption of a
record of the user: a user asks for an operation that is to adopt the record; at some call
of it the removal is put off, the last device adopted by then being the user's record with
that local id; and the removal is due when the configured wait is over. -/
def PutOff (w : World) (past : List Occasion) (user : String) (r : Removal) : Prop :=
  ∃ earlier token op later, past = earlier ++ .request token op :: later ∧
    token.userId = user ∧ r.localId ∈ op.adopts ∧
    (∃ m ∈ (w.meetAll earlier).callsOf token op, m.call = .removeLater r.localId ∧
      ∃ d, d.localId = r.localId ∧ d.userId = user ∧
        m.world.adopted.getLast? = some ⟨token, d⟩) ∧
    ∃ wait, w.wait = some wait ∧ r.due = (w.meetAll earlier).elapsed + wait

variable {α : Type} {w : World} {past : List Occasion} {id : String}

/-- What was put off in the past was put off still when more has happened. -/
theorem PutOff.append {user : String} {r : Removal} (h : w.PutOff past user r) (o : Occasion) :
    w.PutOff (past ++ [o]) user r := by
  obtain ⟨earlier, token, op, later, rfl, hrest⟩ := h
  exact ⟨earlier, token, op, later ++ [o], by simp, hrest⟩

/-! ## Within an operation -/

/-- A record is lost in the course of a run by a call that deletes it, and not otherwise. -/
theorem remove_of_lost (p : Procedure α) (hbefore : w.store.find? id ≠ none)
    (hafter : (w.run p).2.store.find? id = none) : ∃ m ∈ w.calls p, m.call = .remove id := by
  by_contra hnever
  have hkept : w.store.find? id ≠ none → (w.run p).2.store.find? id ≠ none := by
    refine run_respects (R := fun w w' => w.store.find? id ≠ none → w'.store.find? id ≠ none)
      (fun _ h => h) (fun h₁ h₂ h => h₂ (h₁ h)) p w ?_
    intro m hm hfound hlost
    have hne : (m.world.after m.call).store.find? id ≠ m.world.store.find? id := by
      rw [hlost]
      exact hfound.symm
    rcases after_find? hne with ⟨d, _, _, hd⟩ | ⟨hcall, _⟩
    · rw [hd] at hlost
      cases hlost
    · exact hnever ⟨m, hm, hcall⟩
  exact hkept hbefore hafter

/-- No run takes time, and none changes how long removals wait. -/
theorem run_times (p : Procedure α) (w : World) :
    (w.run p).2.elapsed = w.elapsed ∧ (w.run p).2.wait = w.wait := by
  refine run_respects (R := fun w w' => w'.elapsed = w.elapsed ∧ w'.wait = w.wait)
    (fun _ => ⟨rfl, rfl⟩) (fun h₁ h₂ => ⟨h₂.1.trans h₁.1, h₂.2.trans h₁.2⟩) p w ?_
  intro m _
  exact m.world.after_times m.call

/-- A removal that waits after a run waited before it, or some call of the run put it off
until the configured wait is over. -/
theorem run_removals (p : Procedure α) (w : World) {r : Removal}
    (hr : r ∈ (w.run p).2.removals) :
    r ∈ w.removals ∨ (∃ m ∈ w.calls p, m.call = .removeLater r.localId) ∧
      ∃ wait, w.wait = some wait ∧ r.due = w.elapsed + wait := by
  have h := run_respects (R := fun w₁ w₂ =>
    w₂.elapsed = w₁.elapsed ∧ w₂.wait = w₁.wait ∧ (r ∈ w₂.removals → r ∈ w₁.removals ∨
      (∃ m ∈ w.calls p, m.call = .removeLater r.localId) ∧
        ∃ wait, w₁.wait = some wait ∧ r.due = w₁.elapsed + wait))
    (fun _ => ⟨rfl, rfl, .inl⟩) ?_ p w ?_
  · exact h.2.2 hr
  · rintro w₁ w₂ w₃ ⟨helapsed₁, hwait₁, hkept₁⟩ ⟨helapsed₂, hwait₂, hkept₂⟩
    refine ⟨helapsed₂.trans helapsed₁, hwait₂.trans hwait₁, fun hr => ?_⟩
    rcases hkept₂ hr with hold | hnew
    · exact hkept₁ hold
    · rw [hwait₁, helapsed₁] at hnew
      exact .inr hnew
  · intro m hm
    obtain ⟨helapsed, hwait⟩ := m.world.after_times m.call
    refine ⟨helapsed, hwait, fun hr => ?_⟩
    rw [after_removals] at hr
    split at hr
    · rename_i deleted wait hcall hconfigured
      rcases List.mem_append.mp hr with hold | hnew
      · exact .inl hold
      · obtain rfl := List.mem_singleton.mp hnew
        exact .inr ⟨⟨m, hm, hcall⟩, wait, hconfigured, rfl⟩
    · exact .inl hr

/-! ## When removals fall due -/

/-- Carrying out a removal changes what is found under its local id, if anything, and
then nothing is found there. -/
theorem carryOut_find? (w : World) (r : Removal) (id : String) :
    (w.carryOut r).store.find? id = w.store.find? id ∨
      r.localId = id ∧ (w.carryOut r).store.find? id = none := by
  by_cases hsame : (w.carryOut r).store.find? id = w.store.find? id
  · exact .inl hsame
  · rcases after_find? (c := .remove r.localId) hsame with ⟨d, hcall, _⟩ | ⟨hcall, hlost⟩
    · cases hcall
    · exact .inr ⟨Call.remove.inj hcall, hlost⟩

/-- Carrying out removals changes what is found under their local ids, if anything, and
then nothing is found there. -/
theorem foldl_carryOut_find? (rs : List Removal) (w : World) (id : String) :
    (rs.foldl carryOut w).store.find? id = w.store.find? id ∨
      (∃ r ∈ rs, r.localId = id) ∧ (rs.foldl carryOut w).store.find? id = none := by
  induction rs generalizing w with
  | nil => exact .inl rfl
  | cons r rest ih =>
    rw [List.foldl_cons]
    rcases ih (w.carryOut r) with hrest | ⟨⟨r', hr', hid⟩, hlost⟩
    · rcases w.carryOut_find? r id with hfirst | ⟨hid, hlost⟩
      · exact .inl (hrest.trans hfirst)
      · exact .inr ⟨⟨r, List.mem_cons_self, hid⟩, hrest.trans hlost⟩
    · exact .inr ⟨⟨r', List.mem_cons_of_mem r hr', hid⟩, hlost⟩

/-- Carrying out removals puts off none, takes no time, and does not change how long
removals wait. -/
theorem foldl_carryOut_frame (rs : List Removal) (w : World) :
    (rs.foldl carryOut w).removals = w.removals ∧ (rs.foldl carryOut w).wait = w.wait := by
  induction rs generalizing w with
  | nil => exact ⟨rfl, rfl⟩
  | cons r rest ih => exact ih (w.carryOut r)

/-- If deletions are served, nothing is found under the local id of a removal that was
carried out, whoever's record was there. -/
theorem foldl_carryOut_served {rs : List Removal} {r : Removal} (hr : r ∈ rs) (w : World)
    (hserved : ∀ n, w.service.forecast .remove n = .served) :
    (rs.foldl carryOut w).store.find? r.localId = none := by
  induction rs generalizing w with
  | nil => cases hr
  | cons first rest ih =>
    have hnext : ∀ n, (w.carryOut first).service.forecast .remove n = .served := by
      intro n
      simp only [carryOut, removeCall, StoreService.remove, StoreService.answer]
      split <;> exact hserved n
    rcases List.mem_cons.mp hr with rfl | hr
    · have hgone : (w.carryOut r).store.find? r.localId = none := by
        have hstore : (w.carryOut r).store = w.store.erase r.localId :=
          (StoreService.answer_store ..).trans (if_pos (hserved _))
        rw [hstore, Store.find?_erase, if_pos rfl]
      rw [List.foldl_cons]
      rcases foldl_carryOut_find? rest (w.carryOut r) r.localId with hsame | ⟨_, hlost⟩
      · exact hsame.trans hgone
      · exact hlost
    · exact ih hr (w.carryOut first) hnext

variable {millis : Nat}

/-- A removal is carried out when time passes if it is due by then. -/
theorem mem_due {r : Removal} :
    r ∈ (w.removals.filter fun r => r.due ≤ w.elapsed).mergeSort (fun a b => a.due ≤ b.due) ↔
      r ∈ w.removals ∧ r.due ≤ w.elapsed := by
  rw [List.mem_mergeSort, List.mem_filter, decide_eq_true_eq]

/-- A record is lost while time passes by a removal that falls due, and not otherwise. -/
theorem removal_of_lost (hbefore : w.store.find? id ≠ none)
    (hafter : (w.pass millis).store.find? id = none) :
    ∃ r ∈ w.removals, r.localId = id ∧ r.due ≤ w.elapsed + millis := by
  rcases foldl_carryOut_find? _ _ id with hsame | ⟨⟨r, hr, hid⟩, _⟩
  · exact absurd (hsame.symm.trans hafter) hbefore
  · obtain ⟨hwaiting, hdue⟩ := mem_due.mp hr
    exact ⟨r, hwaiting, hid, hdue⟩

/-- Nothing is found under the local id of a removal that has fallen due, if deletions are
served. -/
theorem pass_served {r : Removal} (hr : r ∈ w.removals) (hdue : r.due ≤ w.elapsed + millis)
    (hserved : ∀ n, w.service.forecast .remove n = .served) :
    (w.pass millis).store.find? r.localId = none :=
  have hcarried := (mem_due (w := { w with elapsed := w.elapsed + millis })).mpr ⟨hr, hdue⟩
  foldl_carryOut_served hcarried _ hserved

/-- Removals that wait after time has passed waited before. -/
theorem removals_pass {r : Removal} (hr : r ∈ (w.pass millis).removals) : r ∈ w.removals := by
  have hframe : (w.pass millis).removals = _ := (foldl_carryOut_frame _ _).1
  rw [hframe] at hr
  exact (List.mem_filter.mp hr).1

/-! ## Along a run -/

/-- Nothing changes how long removals wait. -/
theorem meetAll_wait (w : World) (past : List Occasion) : (w.meetAll past).wait = w.wait := by
  induction past using List.reverseRecOn with
  | nil => rfl
  | append_singleton past o ih =>
    rw [meetAll_append_singleton]
    cases o with
    | request token op => exact (run_times _ _).2.trans ih
    | setClock now => exact ih
    | pass millis => exact (foldl_carryOut_frame _ _).2.trans ih

/-- Every removal that waits has waited from the beginning, or was put off by an adoption. -/
theorem removals_meetAll {r : Removal} (hr : r ∈ (w.meetAll past).removals) :
    r ∈ w.removals ∨ ∃ user, w.PutOff past user r := by
  induction past using List.reverseRecOn with
  | nil => exact .inl hr
  | append_singleton past o ih =>
    have hold : r ∈ (w.meetAll past).removals →
        r ∈ w.removals ∨ ∃ user, w.PutOff (past ++ [o]) user r := by
      intro hr
      rcases ih hr with hfirst | ⟨user, hput⟩
      · exact .inl hfirst
      · exact .inr ⟨user, hput.append o⟩
    rw [meetAll_append_singleton] at hr
    cases o with
    | request token op =>
      rcases run_removals (op.procedure token) (w.meetAll past) hr with hr | ⟨⟨m, hm, hcall⟩, hdue⟩
      · exact hold hr
      · have hright := callsOf_rightful _ token op m hm
        rw [Moment.IsRightful, hcall] at hright
        obtain ⟨hadopts, d, hid, howner, hadopted⟩ := hright
        rw [meetAll_wait] at hdue
        exact .inr ⟨token.userId, past, token, op, [], rfl, rfl, hadopts,
          ⟨m, hm, hcall, d, hid, howner, hadopted⟩, hdue⟩
    | setClock now => exact hold hr
    | pass millis => exact hold (removals_pass hr)

end World

/-- **Leaving.** At a desk that opens without removals put off, a record that is found and
then no longer found was deleted or adopted by its owner just now, or time passed and a
removal fell due that an adoption under its local id had put off. Whose adoption that was
and whose record is there makes no difference: when a removal falls due and deletions are
served, nothing is found under its local id. -/
theorem leaves_by_owner_or_due_removal (w : World) (hopens : w.removals = [])
    (past : List Occasion) :
    let before := w.meetAll past
    (∀ o id d, before.store.find? id = some d → (before.meet o).store.find? id = none →
      (∃ token op, o = .request token op ∧ id ∈ op.discards ∧ token.userId = d.userId) ∨
      (∃ millis, o = .pass millis ∧ ∃ r ∈ before.removals, r.localId = id ∧
        r.due ≤ before.elapsed + millis ∧ ∃ user, w.PutOff past user r)) ∧
    (∀ millis, ∀ r ∈ before.removals, r.due ≤ before.elapsed + millis →
      (∀ n, before.service.forecast .remove n = .served) →
      (before.meet (.pass millis)).store.find? r.localId = none) := by
  intro before
  constructor
  · intro o id d hfound hlost
    have hbefore : before.store.find? id ≠ none := by
      rw [hfound]
      exact Option.some_ne_none d
    cases o with
    | request token op =>
      have hchanged : (before.perform token op).store.find? id ≠ before.store.find? id := by
        rw [show (before.perform token op).store.find? id = none from hlost]
        exact hbefore.symm
      have howner := ((before.perform_confined token op).changes id hchanged).1 d hfound
      obtain ⟨m, hm, hcall⟩ := World.remove_of_lost _ hbefore hlost
      have hright := before.callsOf_rightful token op m hm
      rw [Moment.IsRightful, hcall] at hright
      exact .inl ⟨token, op, rfl, hright.1, howner.symm⟩
    | setClock now => exact absurd hlost hbefore
    | pass millis =>
      obtain ⟨r, hr, hid, hdue⟩ := World.removal_of_lost hbefore hlost
      rcases World.removals_meetAll hr with hold | hput
      · rw [hopens] at hold
        cases hold
      · exact .inr ⟨millis, rfl, r, hr, hid, hdue, hput⟩
  · intro millis r hr hdue hserved
    exact World.pass_served hr hdue hserved

/-- A desk at which a removal waits a minute. -/
def minuteDesk : World := { wait := some 60000 }

/-- One user writes a record and has it adopted, and another one then writes a record under
the same local id. -/
def takenOver : List Occasion :=
  [.request ⟨"", "alice", Time.Instant.epoch⟩ (.set (Device.named "d1" "")),
   .request ⟨"", "alice", Time.Instant.epoch⟩ (.use "d1"),
   .request ⟨"", "bob", Time.Instant.epoch⟩ (.set (Device.named "d1" ""))]

/-- The record of the second user is there. -/
theorem find?_takenOver : (minuteDesk.meetAll takenOver).store.find? "d1" =
    some { Device.named "d1" "" with userId := "bob" } := rfl

/-- A minute later it is not. -/
theorem find?_takenOver_pass :
    ((minuteDesk.meetAll takenOver).meet (.pass 60000)).store.find? "d1" = none := by
  decide +kernel

/-- The record of the second user goes when the removal falls due that the first user's
adoption put off. -/
theorem taken_over_record_leaves :
    minuteDesk.removals = [] ∧
    ((minuteDesk.meetAll takenOver).store.find? "d1").map Device.userId = some "bob" ∧
    ((minuteDesk.meetAll takenOver).meet (.pass 60000)).store.find? "d1" = none ∧
    ∃ r ∈ (minuteDesk.meetAll takenOver).removals, r.localId = "d1" ∧
      ∃ user, minuteDesk.PutOff takenOver user r := by
  refine ⟨rfl, congrArg _ find?_takenOver, find?_takenOver_pass, ?_⟩
  have hleaves := (leaves_by_owner_or_due_removal minuteDesk rfl takenOver).1
  rcases hleaves _ _ _ find?_takenOver find?_takenOver_pass with
    ⟨_, _, hrequest, _⟩ | ⟨_, _, r, hr, hid, _, hput⟩
  · cases hrequest
  · exact ⟨r, hr, hid, hput⟩

/-- So it is not true that records leave only by what their owners do: the owner of this
one has put off no removal. -/
theorem leaves_not_only_by_owner :
    ¬ ∀ (w : World) (past : List Occasion) (o : Occasion) (id : String) (d : Device),
      w.removals = [] → (w.meetAll past).store.find? id = some d →
      ((w.meetAll past).meet o).store.find? id = none →
      (∃ token op, o = .request token op ∧ token.userId = d.userId) ∨
      (∃ millis r, o = .pass millis ∧ r.localId = id ∧ w.PutOff past d.userId r) := by
  intro hclaim
  rcases hclaim _ _ _ _ _ rfl find?_takenOver find?_takenOver_pass with
    ⟨_, _, hrequest, _⟩ | ⟨_, r, _, hid, hput⟩
  · cases hrequest
  · obtain ⟨earlier, token, op, later, hpast, huser, hadopts, _⟩ := hput
    have hmem : Occasion.request token op ∈ takenOver := by
      rw [hpast]
      simp
    rw [takenOver] at hmem
    rcases List.mem_cons.mp hmem with h | hmem
    · cases h
      exact absurd huser (by decide)
    · rcases List.mem_cons.mp hmem with h | hmem
      · cases h
        exact absurd huser (by decide)
      · cases List.mem_singleton.mp hmem
        cases hadopts

end WaitingRoom
