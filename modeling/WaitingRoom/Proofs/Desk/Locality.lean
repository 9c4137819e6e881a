import WaitingRoom.Proofs.Desk.Hanging
import WaitingRoom.Proofs.Desk.Outcomes
import WaitingRoom.Proofs.Store.Overlay

/-!
# What an operation has to do with

An operation on one record has to do with no other. It reads, writes and deletes under the local
id of that record only, so it changes nothing that is stored under another one; and it goes the
same way, and has the same notes taken, wherever the same is stored under that local id.
-/

namespace WaitingRoom

variable {α β : Type} {ids ids' : String → Prop} {w v u : World}

/-! ## Staying within some records -/

/-- Whether a call has to do with none but the records under some local ids. -/
def Call.IsWithin (ids : String → Prop) : Call → Prop
  | .read id | .remove id => ids id
  | .write d => ids d.localId
  | .list .. => False
  | .now | .adopt .. | .removeLater _ | .notify .. => True

namespace Procedure

/-- Whether a procedure has to do with none but the records under some local ids, if what it
reads under a local id has that local id. -/
def StaysWithin (ids : String → Prop) : Procedure α → Prop
  | .done _ => True
  | .now next => ∀ t, (next t).StaysWithin ids
  | .read id next => ids id ∧ ∀ found : Except Failure Device,
      (∀ d, found = .ok d → d.localId = id) → (next found).StaysWithin ids
  | .write d next => ids d.localId ∧ ∀ r, (next r).StaysWithin ids
  | .remove id next => ids id ∧ ∀ r, (next r).StaysWithin ids
  | .list .. => False
  | .adopt _ _ next => ∀ r, (next r).StaysWithin ids
  | .removeLater _ next | .notify _ _ next => next.StaysWithin ids

namespace StaysWithin

/-- What follows the success of a procedure stays within the records that both stay within. -/
theorem andThen {p : Procedure (Except Failure α)} {f : α → Procedure (Except Failure β)}
    (hp : p.StaysWithin ids) (hf : ∀ a, (f a).StaysWithin ids) :
    (p.andThen f).StaysWithin ids := by
  induction p with
  | done r =>
    cases r with
    | ok a => exact hf a
    | error e => trivial
  | now next ih => exact fun t => ih t (hp t)
  | read id next ih => exact ⟨hp.1, fun found hfound => ih found (hp.2 found hfound)⟩
  | write d next ih => exact ⟨hp.1, fun r => ih r (hp.2 r)⟩
  | remove id next ih => exact ⟨hp.1, fun r => ih r (hp.2 r)⟩
  | list => exact hp.elim
  | adopt _ _ next ih => exact fun r => ih r (hp r)
  | removeLater _ next ih | notify _ _ next ih => exact ih hp

variable {p q : Procedure α} {c : Call}

/-- What stays within some records stays within more of them. -/
theorem mono (hp : p.StaysWithin ids) (hids : ∀ id, ids id → ids' id) : p.StaysWithin ids' := by
  induction p with
  | done => trivial
  | now next ih => exact fun t => ih t (hp t)
  | read id next ih => exact ⟨hids id hp.1, fun found hfound => ih found (hp.2 found hfound)⟩
  | write d next ih => exact ⟨hids d.localId hp.1, fun r => ih r (hp.2 r)⟩
  | remove id next ih => exact ⟨hids id hp.1, fun r => ih r (hp.2 r)⟩
  | list => exact hp.elim
  | adopt _ _ next ih => exact fun r => ih r (hp r)
  | removeLater _ next ih | notify _ _ next ih => exact ih hp

/-- The next call of a procedure has to do with no more than the procedure. -/
theorem isWithin (hp : p.StaysWithin ids) (hnext : p.nextCall? = some c) : c.IsWithin ids := by
  cases p with
  | done => cases hnext
  | read | write | remove =>
    cases hnext
    exact hp.1
  | list => exact hp.elim
  | now | adopt | removeLater | notify =>
    cases hnext
    trivial

/-- What is left of a procedure after its next call has to do with no more than the procedure. -/
theorem rest (hp : p.StaysWithin ids) (hrest : w.rest p = some q) : q.StaysWithin ids := by
  cases p with
  | done | removeLater | notify =>
    cases hrest
    exact hp
  | now next =>
    cases hrest
    exact hp w.clock
  | read id next =>
    obtain ⟨found, hanswer, rfl⟩ := Option.map_eq_some_iff.mp hrest
    refine hp.2 found ?_
    rintro d rfl
    rcases StoreService.answer_result hanswer with hserved | hfailed
    · exact Store.localId_of_find? (Store.find?_of_read hserved.symm)
    · cases hfailed
  | write | remove =>
    obtain ⟨r, -, rfl⟩ := Option.map_eq_some_iff.mp hrest
    exact hp.2 r
  | list => exact hp.elim
  | adopt =>
    obtain ⟨r, -, rfl⟩ := Option.map_eq_some_iff.mp hrest
    exact hp r

end StaysWithin

end Procedure

namespace Desk

open Procedure (done)

variable {token : Token}

/-- What follows the reading of one's own record may go by its local id. -/
theorem readOwned_staysWithin {id : String} {f : Device → Procedure (Except Failure β)}
    (hid : ids id) (hf : ∀ d, d.localId = id → (f d).StaysWithin ids) :
    ((readOwned token id).andThen f).StaysWithin ids := by
  refine ⟨hid, fun found hfound => ?_⟩
  cases found with
  | error e => trivial
  | ok d =>
    change ((done (owned token.userId id (.ok d))).andThen f).StaysWithin ids
    rw [owned]
    split
    · exact hf d (hfound d rfl)
    · trivial

/-- To write a record is to have to do with that record. -/
theorem store_staysWithin {user id : String} {d : Device} (hid : ids d.localId) :
    (store user d id).StaysWithin ids := by
  refine ⟨hid, fun r => ?_⟩
  cases r <;> trivial

/-- To delete a record is to have to do with that record. -/
theorem discard_staysWithin {user id : String} {change : Change} (hid : ids id) :
    (discard user id change).StaysWithin ids := by
  refine ⟨hid, fun r => ?_⟩
  cases r <;> trivial

/-- What is written for a payload is written under the payload's local id. -/
theorem set_staysWithin {payload : Device} (hid : ids payload.localId) :
    (set token payload).StaysWithin ids := by
  unfold set
  split
  · trivial
  · refine fun now => ⟨hid, fun found _ => ?_⟩
    dsimp only
    split
    · trivial
    · rename_i d hprepared
      have hd : ids d.localId := (prepared_ok hprepared).2.1 ▸ hid
      exact (store_staysWithin hd).andThen fun _ => trivial

/-- To have a record adopted is to have to do with that record. -/
theorem use_staysWithin {id : String} (hid : ids id) : (use token id).StaysWithin ids := by
  refine readOwned_staysWithin hid fun d _ r => ?_
  cases r with
  | ok _ => exact discard_staysWithin hid
  | error f => trivial

/-- To hide or show a record is to have to do with that record. -/
theorem setHidden_staysWithin {hidden : Bool} {id : String} (hid : ids id) :
    (setHidden token hidden id).StaysWithin ids := by
  refine readOwned_staysWithin hid fun d hd => store_staysWithin ?_
  change ids d.localId
  rwa [hd]

end Desk

/-- The local id of the one record that an operation is about, if there is one. -/
def Operation.target? : Operation → Option String
  | read id | use id | delete id | hide id | «show» id => some id
  | set payload => some payload.localId
  | _ => none

/-- An operation has to do with no record but the one that it is about. -/
theorem Operation.staysWithin {op : Operation} {id : String} (htarget : op.target? = some id)
    (hid : ids id) (token : Token) : (op.procedure token).StaysWithin ids := by
  cases op with
  | read => cases htarget; exact ⟨hid, fun _ _ => trivial⟩
  | set => cases htarget; exact Desk.set_staysWithin hid
  | use => cases htarget; exact Desk.use_staysWithin hid
  | delete =>
    cases htarget
    exact Desk.readOwned_staysWithin hid fun _ _ => Desk.discard_staysWithin hid
  | hide | «show» => cases htarget; exact Desk.setHidden_staysWithin hid
  | list | setMany | useMany | deleteMany | hideMany | showMany => cases htarget

/-! ## Worlds that are alike on some records -/

/-- What is found under a local id after a call that is served: what was written or nothing, if a
record was written or deleted there, and otherwise what there was before. -/
def Call.leaves (c : Call) (id : String) (before : Option Device) : Option Device :=
  match c with
  | .write d => if d.localId = id then some d else before
  | .remove deleted => if deleted = id then none else before
  | _ => before

namespace World

/-- Whether two worlds are alike on some local ids: the same is stored under them, and calls of
the store fare the same, at the same time. -/
structure AlikeOn (ids : String → Prop) (w v : World) : Prop where
  found : ∀ id, ids id → v.store.find? id = w.store.find? id
  forecast : v.service.forecast = w.service.forecast
  clock : v.clock = w.clock
  wait : v.wait = w.wait
  elapsed : v.elapsed = w.elapsed

namespace AlikeOn

theorem refl (ids : String → Prop) (w : World) : AlikeOn ids w w :=
  ⟨fun _ _ => rfl, rfl, rfl, rfl, rfl⟩

theorem symm (h : AlikeOn ids w v) : AlikeOn ids v w where
  found id hid := (h.found id hid).symm
  forecast := h.forecast.symm
  clock := h.clock.symm
  wait := h.wait.symm
  elapsed := h.elapsed.symm

theorem trans (h : AlikeOn ids w v) (h' : AlikeOn ids v u) : AlikeOn ids w u where
  found id hid := (h'.found id hid).trans (h.found id hid)
  forecast := h'.forecast.trans h.forecast
  clock := h'.clock.trans h.clock
  wait := h'.wait.trans h.wait
  elapsed := h'.elapsed.trans h.elapsed

/-- Worlds that are alike are alike on fewer local ids. -/
theorem mono (h : AlikeOn ids w v) (hids : ∀ id, ids' id → ids id) : AlikeOn ids' w v :=
  { h with found := fun id hid => h.found id (hids id hid) }

/-- Worlds that are alike on some local ids and on all others are alike. -/
theorem union (h : AlikeOn ids w v) (h' : AlikeOn (fun id => ¬ ids id) w v) :
    AlikeOn (fun _ => True) w v :=
  { h with
    found := fun id _ => by
      by_cases hid : ids id
      · exact h.found id hid
      · exact h'.found id hid }

/-- Worlds that are alike on all local ids store the same. -/
theorem store_eq (h : AlikeOn (fun _ => True) w v) : v.store = w.store :=
  Store.ext_find? fun id => h.found id trivial

end AlikeOn

/-- A call leaves the world as it is on the local ids that it has nothing to do with. -/
theorem alikeOn_after {c : Call} (hc : c.IsWithin ids) (w : World) :
    AlikeOn (fun id => ¬ ids id) w (w.after c) where
  found id hid := by
    by_contra hne
    rcases after_find? hne with ⟨d, rfl, rfl, -⟩ | ⟨rfl, -⟩
    · exact hid hc
    · exact hid hc
  forecast := (w.after_fates c).1
  clock := w.after_clock c
  wait := (w.after_times c).2
  elapsed := (w.after_times c).1

/-- A procedure leaves the world as it is on the local ids that it has nothing to do with. -/
theorem alikeOn_run {p : Procedure α} (hp : p.StaysWithin ids) (w : World) :
    AlikeOn (fun id => ¬ ids id) w (w.run p).2 := by
  induction p using Procedure.rest_induction generalizing w with
  | step p ih =>
    cases hnext : p.nextCall? with
    | none =>
      obtain ⟨a, rfl⟩ := Procedure.eq_done hnext
      exact .refl _ w
    | some c =>
      have hcall := alikeOn_after (hp.isWithin hnext) w
      rw [w.run_eq_rest hnext]
      cases hrest : w.rest p with
      | none => exact hcall
      | some q => exact hcall.trans (ih w c q hnext hrest (hp.rest hrest) (w.after c))

/-! ## Stores that serve every call -/

/-- Whether the store serves every call. -/
def IsFair (w : World) : Prop := w.service.forecast = Forecast.fair

/-- A call that is served is answered as the store has it. -/
theorem IsFair.answer (hw : w.IsFair) (call : StoreCall) (served : Except Failure α × Store) :
    (w.service.answer call served).1 = some served.1 ∧
      (w.service.answer call served).2.store = served.2 := by
  have hnext : w.service.next call = .served := by
    rw [StoreService.next, hw]
    rfl
  rw [StoreService.answer, hnext]
  exact ⟨rfl, rfl⟩

/-- A read is answered with what is stored. -/
theorem IsFair.readCall (hw : w.IsFair) (id : String) :
    (w.readCall id).1 = some (w.store.read id) := (hw.answer ..).1

/-- A write succeeds. -/
theorem IsFair.writeCall (hw : w.IsFair) (d : Device) : (w.writeCall d).1 = some (.ok ()) :=
  (hw.answer ..).1

/-- A deletion succeeds. -/
theorem IsFair.removeCall (hw : w.IsFair) (id : String) : (w.removeCall id).1 = some (.ok ()) :=
  (hw.answer ..).1

/-- The store serves every call still after a call. -/
theorem IsFair.after (hw : w.IsFair) (c : Call) : (w.after c).IsFair :=
  (w.after_fates c).1.trans hw

/-- The store serves every call still after a procedure. -/
theorem IsFair.run (hw : w.IsFair) (p : Procedure α) : (w.run p).2.IsFair :=
  run_respects (R := fun w v => w.IsFair → v.IsFair) (fun _ => id) (fun h h' => h' ∘ h) p w
    (fun m _ hm => hm.after m.call) hw

/-- Calls that are served do what they say. -/
theorem IsFair.find?_after (hw : w.IsFair) (c : Call) (id : String) :
    (w.after c).store.find? id = c.leaves id (w.store.find? id) := by
  cases c with
  | write d =>
    have hstore : (w.after (.write d)).store = w.store.insert d := (hw.answer ..).2
    rw [hstore]
    exact w.store.find?_insert d id
  | remove deleted =>
    have hstore : (w.after (.remove deleted)).store = w.store.erase deleted := (hw.answer ..).2
    rw [hstore]
    exact w.store.find?_erase deleted id
  | read asked => exact congrArg (Store.find? · id) (w.readCall_store asked)
  | list user o => exact congrArg (Store.find? · id) (w.listCall_store user o)
  | adopt t d => exact congrArg (Store.find? · id) (w.adoptCall_store t d)
  | removeLater asked => exact congrArg (Store.find? · id) (w.removeLater_store asked)
  | now | notify => rfl

/-- Worlds that are alike are so still after a call that is served in both. -/
theorem AlikeOn.after (h : AlikeOn ids w v) (hw : w.IsFair) (c : Call) :
    AlikeOn ids (w.after c) (v.after c) where
  found id hid := by
    have hv : v.IsFair := h.forecast.trans hw
    rw [hw.find?_after, hv.find?_after, h.found id hid]
  forecast := by rw [(v.after_fates c).1, (w.after_fates c).1, h.forecast]
  clock := by rw [v.after_clock, w.after_clock, h.clock]
  wait := by rw [(v.after_times c).2, (w.after_times c).2, h.wait]
  elapsed := by rw [(v.after_times c).1, (w.after_times c).1, h.elapsed]

/-! ## Notes -/

end World

/-- What is noted in some calls, and how often the device manager was asked. -/
structure Notes where
  notices : List Notice := []
  adopted : List Adoption := []
  removals : List Removal := []
  asked : Nat := 0

namespace World

/-- Whether some more has been noted between two worlds. -/
structure Adds (w v : World) (n : Notes) : Prop where
  notices : v.notices = w.notices ++ n.notices
  adopted : v.adopted = w.adopted ++ n.adopted
  removals : v.removals = w.removals ++ n.removals
  asked : v.asked = w.asked + n.asked
  manager : v.manager = w.manager

/-- Nothing is noted where nothing is done. -/
theorem Adds.refl (w : World) : w.Adds w {} := by
  constructor <;> simp

/-- What is noted first stands before what is noted later. -/
theorem Adds.trans {first second : Notes} (h : w.Adds v first) (h' : v.Adds u second) :
    w.Adds u
      { notices := first.notices ++ second.notices
        adopted := first.adopted ++ second.adopted
        removals := first.removals ++ second.removals
        asked := first.asked + second.asked } where
  notices := by rw [h'.notices, h.notices, List.append_assoc]
  adopted := by rw [h'.adopted, h.adopted, List.append_assoc]
  removals := by rw [h'.removals, h.removals, List.append_assoc]
  asked := by rw [h'.asked, h.asked, Nat.add_assoc]
  manager := h'.manager.trans h.manager

/-- What is noted at a call. -/
def noted (w : World) : Call → Notes
  | .adopt token d =>
    { adopted := if w.manager w.asked = .accepted then [⟨token, d⟩] else [], asked := 1 }
  | .removeLater id => { removals := w.wait.toList.map fun wait => ⟨id, w.elapsed + wait⟩ }
  | .notify user e => { notices := [⟨user, e⟩] }
  | _ => {}

/-- A call adds to the notes what is noted at it. -/
theorem adds_after (w : World) (c : Call) : w.Adds (w.after c) (w.noted c) where
  notices := by
    rw [after_notices]
    cases c <;> simp [noted]
  adopted := by
    cases c with
    | adopt => simp only [after, adoptCall]; split <;> simp [noted, *]
    | removeLater => simp only [after, removeLater]; split <;> simp [noted]
    | _ => exact (List.append_nil _).symm
  removals := by
    rw [after_removals]
    cases c <;> cases hwait : w.wait <;> simp [noted, hwait]
  asked := by
    cases c with
    | adopt => simp only [after, adoptCall]; split <;> rfl
    | removeLater => simp only [after, removeLater]; split <;> rfl
    | _ => rfl
  manager := (w.after_fates c).2

/-- A procedure adds to the notes, and leaves the device manager as it is. -/
theorem adds_run (p : Procedure α) (w : World) : ∃ n, w.Adds (w.run p).2 n := by
  refine run_respects (R := fun w v => ∃ n, w.Adds v n) (fun w => ⟨{}, .refl w⟩) ?_ p w
    fun m _ => ⟨_, m.world.adds_after m.call⟩
  rintro w₁ w₂ w₃ ⟨n, hn⟩ ⟨m, hm⟩
  exact ⟨_, hn.trans hm⟩

/-- By the end of a procedure the device manager was asked at least as often as by its next call. -/
theorem asked_after_le {p : Procedure α} {c : Call} (w : World) (hnext : p.nextCall? = some c) :
    (w.after c).asked ≤ (w.run p).2.asked := by
  rw [w.run_eq_rest hnext]
  split
  · rename_i q _
    obtain ⟨n, hn⟩ := (w.after c).adds_run q
    exact hn.asked ▸ Nat.le_add_right ..
  · exact Nat.le_refl _

/-! ## Runs that go the same way -/

/-- Whether two runs of a procedure go the same way: they end the same, leave the worlds alike on
some local ids, and have the same noted. -/
structure RunsTheSame (ids : String → Prop) (p : Procedure α) (w v : World) : Prop where
  ending : (v.run p).1 = (w.run p).1
  after : AlikeOn ids (w.run p).2 (v.run p).2
  notes : ∃ n, w.Adds (w.run p).2 n ∧ v.Adds (v.run p).2 n

/-- In worlds that are alike on the local ids that a procedure has to do with, its next call is
answered the same and the same is noted, if the device manager answers the same when it is
asked. -/
theorem AlikeOn.rest_eq {p : Procedure α} {c : Call} (h : AlikeOn ids w v) (hw : w.IsFair)
    (hp : p.StaysWithin ids) (hnext : p.nextCall? = some c)
    (hanswer : 0 < (w.noted c).asked → v.manager v.asked = w.manager w.asked) :
    v.rest p = w.rest p ∧ v.noted c = w.noted c := by
  have hv : v.IsFair := h.forecast.trans hw
  cases p with
  | done => cases hnext
  | now next =>
    cases hnext
    exact ⟨by rw [rest, rest, h.clock], rfl⟩
  | read id next =>
    cases hnext
    refine ⟨?_, rfl⟩
    rw [rest, rest, hv.readCall, hw.readCall, Store.read, Store.read, h.found id hp.1]
  | write d next =>
    cases hnext
    exact ⟨by rw [rest, rest, hv.writeCall, hw.writeCall], rfl⟩
  | remove id next =>
    cases hnext
    exact ⟨by rw [rest, rest, hv.removeCall, hw.removeCall], rfl⟩
  | list => exact hp.elim
  | adopt t d next =>
    cases hnext
    have hsame := hanswer Nat.one_pos
    have hadopt : (v.adoptCall t d).1 = (w.adoptCall t d).1 := by
      simp only [adoptCall, hsame]
      split <;> rfl
    exact ⟨congrArg (Option.map next) hadopt, by simp only [noted, hsame]⟩
  | removeLater id next =>
    cases hnext
    exact ⟨rfl, by simp only [noted, h.wait, h.elapsed]⟩
  | notify user e next =>
    cases hnext
    exact ⟨rfl, rfl⟩

/-- A procedure goes the same way in worlds that are alike on the local ids that it has to do
with, if the device manager answers the same as often as it is asked. -/
theorem AlikeOn.runsTheSame {p : Procedure α} (h : AlikeOn ids w v) (hw : w.IsFair)
    (hp : p.StaysWithin ids)
    (hanswers : ∀ n, w.asked + n < (w.run p).2.asked →
      v.manager (v.asked + n) = w.manager (w.asked + n)) : RunsTheSame ids p w v := by
  induction p using Procedure.rest_induction generalizing w v with
  | step p ih =>
    cases hnext : p.nextCall? with
    | none =>
      obtain ⟨a, rfl⟩ := Procedure.eq_done hnext
      exact ⟨rfl, h, {}, .refl w, .refl v⟩
    | some c =>
      have hcall := w.adds_after c
      obtain ⟨hrest, hnoted⟩ := h.rest_eq hw hp hnext fun hasks => hanswers 0 (by
        have hend := w.asked_after_le hnext
        rw [hcall.asked] at hend
        omega)
      have hcall' : v.Adds (v.after c) (w.noted c) := hnoted ▸ v.adds_after c
      have hafter := h.after hw c
      have hrun := w.run_eq_rest hnext
      have hrun' := v.run_eq_rest hnext
      rw [hrest] at hrun'
      cases hq : w.rest p with
      | none =>
        rw [hq] at hrun hrun'
        constructor
        · rw [hrun, hrun']
        · rw [hrun, hrun']
          exact hafter
        · rw [hrun, hrun']
          exact ⟨w.noted c, hcall, hcall'⟩
      | some q =>
        rw [hq] at hrun hrun'
        obtain ⟨hending, hsame, n, hn, hn'⟩ := ih w c q hnext hq hafter (hw.after c) (hp.rest hq)
          fun n hlt => by
            -- the answers that are left are those after the one that this call may have had
            have hleft := hanswers ((w.noted c).asked + n) (by
              rwa [hrun, ← Nat.add_assoc, ← hcall.asked])
            rw [hcall.manager, hcall'.manager, hcall.asked, hcall'.asked, Nat.add_assoc,
              Nat.add_assoc]
            exact hleft
        constructor
        · rw [hrun, hrun']
          exact hending
        · rw [hrun, hrun']
          exact hsame
        · rw [hrun, hrun']
          exact ⟨_, hcall.trans hn, hcall'.trans hn'⟩

end World

end WaitingRoom
