import WaitingRoom.Proofs.Desk.Turns

/-!
# Calls that never come back

A call of the store or of the device manager may hang, and then it is the last of its run. It
leaves all that there is to see of the desk as it was: the records, the devices that were taken
over, the removals that were put off, and the notices. A run of which no call hangs comes to
its end.
-/

namespace WaitingRoom

/-- What there is to see of the desk: the records kept, the devices taken over, the removals
that wait for their time, and the notices given. -/
@[ext] structure Ledger where
  store : Store
  adopted : List Adoption
  removals : List Removal
  notices : List Notice

/-- What there is to see in a world. -/
def World.ledger (w : World) : Ledger := ⟨w.store, w.adopted, w.removals, w.notices⟩

/-- Whether a call waits for an answer that never comes. -/
def Moment.Hangs (m : Moment) : Prop :=
  match m.call with
  | .read id => (m.world.readCall id).1 = none
  | .write d => (m.world.writeCall d).1 = none
  | .remove id => (m.world.removeCall id).1 = none
  | .list user o => (m.world.listCall user o).1 = none
  | .adopt t d => (m.world.adoptCall t d).1 = none
  | .now | .removeLater _ | .notify _ _ => False

namespace StoreService

variable {α : Type} {s : StoreService} {call : StoreCall} {served : Except Failure α × Store}

/-- A call of the store has no answer if it is its fate to hang. -/
theorem answer_eq_none : (s.answer call served).1 = none ↔ s.next call = .hanging := by
  unfold answer
  cases s.next call <;> simp

/-- A call of the store that hangs leaves the store as it is. -/
theorem answer_store_of_none (hnone : (s.answer call served).1 = none) :
    (s.answer call served).2.store = s.store := by
  rw [answer_store, answer_eq_none.mp hnone, if_neg nofun]

/-- No call of the store changes how later ones fare. -/
theorem answer_forecast (s : StoreService) (call : StoreCall)
    (served : Except Failure α × Store) : (s.answer call served).2.forecast = s.forecast := by
  unfold answer
  cases s.next call <;> rfl

end StoreService

/-- The device manager has no answer to an adoption if it is its fate to hang. -/
theorem World.adoptCall_eq_none {w : World} {t : Token} {d : Device} :
    (w.adoptCall t d).1 = none ↔ w.manager w.asked = .hanging := by
  unfold adoptCall
  cases w.manager w.asked <;> simp

/-- A call that hangs leaves everything as it is. -/
theorem Moment.Hangs.ledger_after {m : Moment} (hhangs : m.Hangs) :
    (m.world.after m.call).ledger = m.world.ledger := by
  obtain ⟨w, call⟩ := m
  cases call with
  | now | removeLater | notify => exact hhangs.elim
  | read | write | remove | list =>
    exact Ledger.ext (StoreService.answer_store_of_none hhangs) rfl rfl rfl
  | adopt t d =>
    change (w.adoptCall t d).1 = none at hhangs
    change (w.adoptCall t d).2.ledger = w.ledger
    unfold World.adoptCall at hhangs ⊢
    split <;> simp_all [World.ledger, World.store]

/-- A procedure that makes no more calls is done. -/
theorem Procedure.eq_done {α : Type} {p : Procedure α} (hnext : p.nextCall? = none) :
    ∃ a, p = .done a := by
  cases p with
  | done a => exact ⟨a, rfl⟩
  | _ => cases hnext

namespace World

variable {α : Type} {w : World} {p : Procedure α} {c : Call}

/-- The calls of a procedure are its next call and those of what is left. -/
theorem calls_eq_rest (hnext : p.nextCall? = some c) :
    w.calls p = ⟨w, c⟩ :: match w.rest p with
      | some q => (w.after c).calls q
      | none => [] := by
  cases p with
  | done => cases hnext
  | now | removeLater | notify =>
    cases hnext
    rfl
  | read id next =>
    cases hnext
    rw [calls, rest, after]
    rcases w.readCall id with ⟨_ | r, v⟩ <;> rfl
  | write d next =>
    cases hnext
    rw [calls, rest, after]
    rcases w.writeCall d with ⟨_ | r, v⟩ <;> rfl
  | remove id next =>
    cases hnext
    rw [calls, rest, after]
    rcases w.removeCall id with ⟨_ | r, v⟩ <;> rfl
  | list user o next =>
    cases hnext
    rw [calls, rest, after]
    rcases w.listCall user o with ⟨_ | r, v⟩ <;> rfl
  | adopt t d next =>
    cases hnext
    rw [calls, rest, after]
    rcases w.adoptCall t d with ⟨_ | r, v⟩ <;> rfl

/-- Nothing is left of a procedure whose next call hangs. -/
theorem hangs_iff_rest (hnext : p.nextCall? = some c) :
    Moment.Hangs ⟨w, c⟩ ↔ w.rest p = none := by
  cases p with
  | done => cases hnext
  | now | removeLater | notify | read | write | remove | list | adopt =>
    cases hnext
    simp [Moment.Hangs, rest]

/-- A call that hangs is the last of its run. -/
theorem run_of_hangs {m : Moment} (hm : m ∈ w.calls p) (hhangs : m.Hangs) :
    w.run p = (.hung, m.world.after m.call) ∧ (w.calls p).getLast? = some m := by
  induction p using Procedure.rest_induction generalizing w with
  | step p ih =>
    cases hnext : p.nextCall? with
    | none =>
      obtain ⟨a, rfl⟩ := Procedure.eq_done hnext
      cases hm
    | some c =>
      rw [calls_eq_rest hnext] at hm ⊢
      rw [w.run_eq_rest hnext]
      rcases List.mem_cons.mp hm with rfl | hm
      · rw [(hangs_iff_rest hnext).mp hhangs]
        exact ⟨rfl, rfl⟩
      · cases hrest : w.rest p with
        | none =>
          rw [hrest] at hm
          cases hm
        | some q =>
          rw [hrest] at hm
          obtain ⟨hrun, hlast⟩ := ih w c q hnext hrest hm
          exact ⟨hrun, by rw [List.getLast?_cons, hlast]; rfl⟩

/-- A run of which no call hangs comes to its end. -/
theorem run_finishes (hanswered : ∀ m ∈ w.calls p, ¬ m.Hangs) :
    ∃ a v, w.run p = (.finished a, v) := by
  induction p using Procedure.rest_induction generalizing w with
  | step p ih =>
    cases hnext : p.nextCall? with
    | none =>
      obtain ⟨a, rfl⟩ := Procedure.eq_done hnext
      exact ⟨a, w, rfl⟩
    | some c =>
      rw [calls_eq_rest hnext] at hanswered
      obtain ⟨hcall, hrest⟩ := List.forall_mem_cons.mp hanswered
      rw [hangs_iff_rest hnext] at hcall
      obtain ⟨q, hq⟩ := Option.ne_none_iff_exists'.mp hcall
      rw [hq] at hrest
      rw [w.run_eq_rest hnext, hq]
      exact ih w c q hnext hq hrest

/-- A run that does not come to its end has a call that hangs. -/
theorem exists_hangs (hhung : (w.run p).1 = .hung) : ∃ m ∈ w.calls p, m.Hangs := by
  by_cases hsome : ∃ m ∈ w.calls p, m.Hangs
  · exact hsome
  · obtain ⟨a, v, hrun⟩ := run_finishes fun m hm hhangs => hsome ⟨m, hm, hhangs⟩
    rw [hrun] at hhung
    cases hhung

/-- What every call keeps up holds in the world of every call of a run that begins with it. -/
theorem forall_calls_of_kept {P : World → Prop} (hkept : ∀ w c, P w → P (w.after c)) (hw : P w) :
    ∀ m ∈ w.calls p, P m.world := by
  induction p using Procedure.rest_induction generalizing w with
  | step p ih =>
    cases hnext : p.nextCall? with
    | none =>
      obtain ⟨a, rfl⟩ := Procedure.eq_done hnext
      exact fun _ hm => nomatch hm
    | some c =>
      rw [calls_eq_rest hnext]
      refine List.forall_mem_cons.mpr ⟨hw, ?_⟩
      cases hrest : w.rest p with
      | none => exact fun _ hm => nomatch hm
      | some q => exact ih w c q hnext hrest (hkept w c hw)

/-- No call changes how the calls of the store and of the device manager fare. -/
theorem after_fates (w : World) (c : Call) :
    (w.after c).service.forecast = w.service.forecast ∧ (w.after c).manager = w.manager := by
  cases c with
  | now | notify => exact ⟨rfl, rfl⟩
  | read | write | remove | list => exact ⟨StoreService.answer_forecast .., rfl⟩
  | adopt => simp only [after, adoptCall]; split <;> exact ⟨rfl, rfl⟩
  | removeLater => simp only [after, removeLater]; split <;> exact ⟨rfl, rfl⟩

/-- Whether neither the store nor the device manager ever leaves a call without an answer. -/
structure Responds (w : World) : Prop where
  store : ∀ call n, w.service.forecast call n ≠ .hanging
  manager : ∀ n, w.manager n ≠ .hanging

/-- Where every call is answered, none hangs. -/
theorem Responds.not_hangs (h : w.Responds) : ∀ m ∈ w.calls p, ¬ m.Hangs := by
  have hresponds : ∀ m ∈ w.calls p, m.world.Responds := by
    refine forall_calls_of_kept (fun v c hv => ?_) h
    obtain ⟨hforecast, hmanager⟩ := v.after_fates c
    exact ⟨by rw [hforecast]; exact hv.store, by rw [hmanager]; exact hv.manager⟩
  intro m hm hhangs
  obtain ⟨v, call⟩ := m
  obtain ⟨hstore, hmanager⟩ := hresponds _ hm
  cases call with
  | now | removeLater | notify => exact hhangs
  | read | write | remove | list => exact hstore _ _ (StoreService.answer_eq_none.mp hhangs)
  | adopt t d => exact hmanager _ (adoptCall_eq_none.mp hhangs)

end World

end WaitingRoom
