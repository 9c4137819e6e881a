import WaitingRoom.Desk.World
import WaitingRoom.Proofs.Store.Lookup

/-!
# The calls of a run

A run of a procedure is the row of calls it makes, each in the world that the calls
before it have left behind. What holds of a run is read off its calls: a relation
between worlds that every call respects holds between the ends of the run.
-/

namespace WaitingRoom

/-- A call that a procedure makes. -/
inductive Call
  | now
  | read (id : String)
  | write (device : Device)
  | remove (id : String)
  | list (user : String) (options : ListOptions)
  | adopt (token : Token) (device : Device)
  | removeLater (id : String)
  | notify (user : String) (event : Event)

/-- A call, and the world in which it is made. -/
structure Moment where
  world : World
  call : Call

namespace World

variable {α β : Type}

/-- The world after a call. -/
def after (w : World) : Call → World
  | .now => w
  | .read id => (w.readCall id).2
  | .write d => (w.writeCall d).2
  | .remove id => (w.removeCall id).2
  | .list user o => (w.listCall user o).2
  | .adopt t d => (w.adoptCall t d).2
  | .removeLater id => w.removeLater id
  | .notify user e => w.notify user e

/-- The calls a procedure makes until it ends or a call hangs, in their order. -/
def calls : Procedure α → World → List Moment
  | .done _, _ => []
  | .now next, w => ⟨w, .now⟩ :: calls (next w.clock) w
  | .read id next, w => ⟨w, .read id⟩ ::
    match w.readCall id with
    | (some r, w) => calls (next r) w
    | (none, _) => []
  | .write d next, w => ⟨w, .write d⟩ ::
    match w.writeCall d with
    | (some r, w) => calls (next r) w
    | (none, _) => []
  | .remove id next, w => ⟨w, .remove id⟩ ::
    match w.removeCall id with
    | (some r, w) => calls (next r) w
    | (none, _) => []
  | .list user o next, w => ⟨w, .list user o⟩ ::
    match w.listCall user o with
    | (some r, w) => calls (next r) w
    | (none, _) => []
  | .adopt t d next, w => ⟨w, .adopt t d⟩ ::
    match w.adoptCall t d with
    | (some r, w) => calls (next r) w
    | (none, _) => []
  | .removeLater id next, w => ⟨w, .removeLater id⟩ :: calls next (w.removeLater id)
  | .notify user e next, w => ⟨w, .notify user e⟩ :: calls next (w.notify user e)

/-- A relation that every call of a run respects holds between the worlds before and
after the run. -/
theorem run_respects {R : World → World → Prop} (hrefl : ∀ w, R w w)
    (htrans : ∀ {w₁ w₂ w₃}, R w₁ w₂ → R w₂ w₃ → R w₁ w₃) (p : Procedure α) (w : World)
    (hcalls : ∀ m ∈ w.calls p, R m.world (m.world.after m.call)) : R w (w.run p).2 := by
  induction p generalizing w with
  | done => exact hrefl w
  | now next ih =>
    obtain ⟨hcall, hrest⟩ := List.forall_mem_cons.mp hcalls
    exact htrans hcall (ih w.clock w hrest)
  | removeLater _ next ih | notify _ _ next ih =>
    obtain ⟨hcall, hrest⟩ := List.forall_mem_cons.mp hcalls
    exact htrans hcall (ih _ hrest)
  | read _ next ih | write _ next ih | remove _ next ih | list _ _ next ih | adopt _ _ next ih =>
    rw [calls] at hcalls
    obtain ⟨hcall, hrest⟩ := List.forall_mem_cons.mp hcalls
    rw [run]
    split
    · rename_i r w' hanswer
      simp only [after, hanswer] at hcall hrest
      exact htrans hcall (ih r w' hrest)
    · rename_i w' hanswer
      simpa only [after, hanswer] using hcall

/-- The calls of a procedure followed by another are those of the first and then those of
the second, if it comes to that. -/
theorem calls_bind (p : Procedure α) (f : α → Procedure β) (w : World) :
    w.calls (p.bind f) = w.calls p ++ match w.run p with
      | (.finished a, w) => w.calls (f a)
      | (.hung, _) => [] := by
  induction p generalizing w with
  | done => rfl
  | now next ih => exact congrArg _ (ih w.clock w)
  | removeLater _ next ih | notify _ _ next ih => exact congrArg _ (ih _)
  | read _ next ih | write _ next ih | remove _ next ih | list _ _ next ih | adopt _ _ next ih =>
    simp only [Procedure.bind, calls, run, List.cons_append]
    split
    · simp only [*]
    · simp only [*, List.append_nil]

/-- What holds of all calls of a procedure, and of all calls of the one that follows its
success, holds of all calls of both together. -/
theorem forall_calls_andThen {P : Moment → Prop} {p : Procedure (Except Failure α)}
    {f : α → Procedure (Except Failure β)} {w : World} (hfirst : ∀ m ∈ w.calls p, P m)
    (hsecond : ∀ a w', w.run p = (.finished (.ok a), w') → ∀ m ∈ w'.calls (f a), P m) :
    ∀ m ∈ w.calls (p.andThen f), P m := by
  intro m hm
  rw [Procedure.andThen, calls_bind] at hm
  rcases List.mem_append.mp hm with hm | hm
  · exact hfirst m hm
  · split at hm
    · rename_i r w' hrun
      cases r with
      | ok a => exact hsecond a w' hrun m hm
      | error f => cases hm
    · cases hm

/-- What holds of all calls made for each of the items, in whatever world, holds of all
calls of the batch. -/
theorem forall_calls_each {P : Moment → Prop} {p : α → Procedure (Except Failure β)}
    {items : List α} (hitem : ∀ a ∈ items, ∀ w, ∀ m ∈ World.calls (p a) w, P m) (w : World) :
    ∀ m ∈ w.calls (Procedure.each p items), P m := by
  induction items generalizing w with
  | nil => intro m hm; cases hm
  | cons a rest ih =>
    obtain ⟨hfirst, hrest⟩ := List.forall_mem_cons.mp hitem
    apply forall_calls_andThen (hfirst w)
    intro b w' _
    apply forall_calls_andThen (ih hrest w')
    intro bs w'' _ m hm
    cases hm

end World

/-! ## What a call changes -/

/-- A call that is served may change the store; one that fails or hangs does not. -/
theorem StoreService.answer_store {α : Type} (s : StoreService) (call : StoreCall)
    (served : Except Failure α × Store) :
    (s.answer call served).2.store = if s.next call = .served then served.2 else s.store := by
  unfold answer
  split <;> simp_all

/-- A call is answered as the store has it, or with a failure. -/
theorem StoreService.answer_result {α : Type} {s : StoreService} {call : StoreCall}
    {served : Except Failure α × Store} {r : Except Failure α}
    (hanswer : (s.answer call served).1 = some r) : r = served.1 ∨ r = .error diskFull := by
  unfold answer at hanswer
  split at hanswer
  · exact .inl (Option.some.inj hanswer).symm
  · exact .inr (Option.some.inj hanswer).symm
  · cases hanswer

namespace World

/-- Reading leaves the store as it is. -/
@[simp] theorem readCall_store (w : World) (id : String) : (w.readCall id).2.store = w.store := by
  unfold readCall StoreService.read
  exact (StoreService.answer_store ..).trans (ite_self _)

/-- Listing leaves the store as it is. -/
@[simp] theorem listCall_store (w : World) (user : String) (o : ListOptions) :
    (w.listCall user o).2.store = w.store :=
  (StoreService.answer_store ..).trans (ite_self _)

/-- Writing puts the record into the store, or changes nothing. -/
theorem writeCall_store (w : World) (d : Device) :
    (w.writeCall d).2.store = w.store.insert d ∨ (w.writeCall d).2.store = w.store := by
  have h : (w.writeCall d).2.store = _ := StoreService.answer_store ..
  split at h
  · exact .inl h
  · exact .inr h

/-- Deleting takes the record out of the store, or changes nothing. -/
theorem removeCall_store (w : World) (id : String) :
    (w.removeCall id).2.store = w.store.erase id ∨ (w.removeCall id).2.store = w.store := by
  have h : (w.removeCall id).2.store = _ := StoreService.answer_store ..
  split at h
  · exact .inl h
  · exact .inr h

/-- Asking the device manager leaves the store as it is. -/
@[simp] theorem adoptCall_store (w : World) (t : Token) (d : Device) :
    (w.adoptCall t d).2.store = w.store := by
  unfold adoptCall
  split <;> rfl

/-- Having a record removed later leaves the store as it is for now. -/
@[simp] theorem removeLater_store (w : World) (id : String) :
    (w.removeLater id).store = w.store := by
  unfold removeLater
  split <;> rfl

/-- Where something else is found after a call, a record with that local id was written,
or the local id was deleted. -/
theorem after_find? {w : World} {c : Call} {id : String}
    (hne : (w.after c).store.find? id ≠ w.store.find? id) :
    (∃ d, c = .write d ∧ d.localId = id ∧ (w.after c).store.find? id = some d) ∨
      (c = .remove id ∧ (w.after c).store.find? id = none) := by
  cases c with
  | write d =>
    rcases w.writeCall_store d with hserved | hfailed
    · have hfind : (w.after (.write d)).store.find? id = _ :=
        (congrArg (Store.find? · id) hserved).trans (w.store.find?_insert d id)
      by_cases hid : d.localId = id
      · rw [if_pos hid] at hfind
        exact .inl ⟨d, rfl, hid, hfind⟩
      · rw [if_neg hid] at hfind
        exact absurd hfind hne
    · exact absurd (congrArg (Store.find? · id) hfailed) hne
  | remove deleted =>
    rcases w.removeCall_store deleted with hserved | hfailed
    · have hfind : (w.after (.remove deleted)).store.find? id = _ :=
        (congrArg (Store.find? · id) hserved).trans (w.store.find?_erase deleted id)
      by_cases hid : deleted = id
      · rw [if_pos hid] at hfind
        exact .inr ⟨hid ▸ rfl, hfind⟩
      · rw [if_neg hid] at hfind
        exact absurd hfind hne
    · exact absurd (congrArg (Store.find? · id) hfailed) hne
  | read asked => exact absurd (congrArg (Store.find? · id) (w.readCall_store asked)) hne
  | list user o => exact absurd (congrArg (Store.find? · id) (w.listCall_store user o)) hne
  | adopt t d => exact absurd (congrArg (Store.find? · id) (w.adoptCall_store t d)) hne
  | removeLater asked => exact absurd (congrArg (Store.find? · id) (w.removeLater_store asked)) hne
  | now => exact absurd rfl hne
  | notify user e => exact absurd rfl hne

/-- A read is answered with what is found, or with a failure. -/
theorem readCall_result {w w' : World} {id : String} {r : Except Failure Device}
    (hread : w.readCall id = (some r, w')) : r = w.store.read id ∨ r = .error diskFull :=
  StoreService.answer_result (congrArg Prod.fst hread)

/-- A device that is taken over is noted with the token on whose behalf it is. -/
theorem adoptCall_adopted {w w' : World} {t : Token} {d : Device}
    (hadopt : w.adoptCall t d = (some (.ok ()), w')) : w'.adopted = w.adopted ++ [⟨t, d⟩] := by
  unfold adoptCall at hadopt
  split at hadopt <;> cases hadopt
  rfl

/-- Notice is given by nothing but calls that say so. -/
theorem after_notices (w : World) (c : Call) :
    (w.after c).notices = match c with
      | .notify user e => w.notices ++ [⟨user, e⟩]
      | _ => w.notices := by
  cases c with
  | adopt => simp only [after, adoptCall]; split <;> rfl
  | removeLater => simp only [after, removeLater]; split <;> rfl
  | _ => rfl

/-- Removals are put off by nothing but calls that say so. -/
theorem after_removals (w : World) (c : Call) :
    (w.after c).removals = match c, w.wait with
      | .removeLater id, some wait => w.removals ++ [⟨id, w.elapsed + wait⟩]
      | _, _ => w.removals := by
  cases c with
  | adopt => simp only [after, adoptCall]; split <;> rfl
  | removeLater => simp only [after, removeLater]; split <;> simp [*]
  | _ => rfl

/-- No call takes time, and none changes how long removals wait. -/
theorem after_times (w : World) (c : Call) :
    (w.after c).elapsed = w.elapsed ∧ (w.after c).wait = w.wait := by
  cases c with
  | adopt => simp only [after, adoptCall]; split <;> exact ⟨rfl, rfl⟩
  | removeLater => simp only [after, removeLater]; split <;> exact ⟨rfl, rfl⟩
  | _ => exact ⟨rfl, rfl⟩

end World

end WaitingRoom
