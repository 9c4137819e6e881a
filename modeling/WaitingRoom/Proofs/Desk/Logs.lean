import WaitingRoom.Proofs.Desk.Acts
import WaitingRoom.Proofs.Desk.Hanging
import WaitingRoom.Proofs.Desk.Removals
import WaitingRoom.Proofs.Desk.Replies

/-!
# What is done on occasions

Along a row of occasions the desk makes the calls of the operations that it is asked for, and it
carries out removals when time passes. All of it is kept as a row of acts, as it is where requests
take turns: each act with the world in which it was done, and by whom.
-/

namespace WaitingRoom

/-- What an act has left nothing of is still not there if it has not been written again. -/
theorem Bustle.Linked.find?_eq_none {before after : List Act} {act : Act} {now : Store}
    {id : String} (h : Linked (before ++ act :: after) now)
    (hgone : (act.world.after act.call).store.find? id = none)
    (hnever : ∀ other ∈ after, ∀ d, other.call = .write d → d.localId ≠ id) :
    now.find? id = none := by
  have hact : (before ++ act :: after)[before.length]? = some act := by simp
  have hthen : (storeAt (before ++ act :: after) now (before.length + 1)).find? id = none := by
    rw [h before.length act hact, hgone]
  cases hfind : now.find? id with
  | none => rfl
  | some e =>
    have hnow : (storeAt (before ++ act :: after) now (before ++ act :: after).length).find? id =
        some e := by
      rw [storeAt_length, hfind]
    obtain ⟨j, other, hj, -, hother, hwrite, hid⟩ :=
      h.exists_write (by rw [hthen]; nofun) (by simp) hnow
    rw [List.getElem?_append_right (by omega)] at hother
    obtain ⟨k, hk⟩ : ∃ k, j - before.length = k + 1 := ⟨j - before.length - 1, by omega⟩
    rw [hk, List.getElem?_cons_succ] at hother
    exact absurd hid (hnever other (List.mem_of_getElem? hother) e hwrite)

namespace World

/-! ## Rows of acts -/

/-- The removals whose time has come, the earliest first. -/
def dueRemovals (w : World) : List Removal :=
  (w.removals.filter fun r => r.due ≤ w.elapsed).mergeSort fun a b => a.due ≤ b.due

/-- The world in which removals whose time has come wait no longer. -/
def withoutDue (w : World) : World :=
  { w with removals := w.removals.filter fun r => !(r.due ≤ w.elapsed) }

/-- The acts of removals that are carried out one after the other. -/
def actsOfRemovals (w : World) : List Removal → List Act
  | [] => []
  | r :: rest => ⟨⟨w, .remove r.localId⟩, .removal r⟩ :: (w.carryOut r).actsOfRemovals rest

/-- What is done on an occasion. A request is alone at the desk while it is served, and so it is
the first there. -/
def actsAt (w : World) : Occasion → List Act
  | .request token op => (w.callsOf token op).map fun m => ⟨m, .request 0 token op⟩
  | .setClock _ => []
  | .pass millis =>
    let v : World := { w with elapsed := w.elapsed + millis }
    v.withoutDue.actsOfRemovals v.dueRemovals

/-- What is done along a row of occasions. -/
def actsAlong (w : World) : List Occasion → List Act
  | [] => []
  | o :: rest => w.actsAt o ++ (w.meet o).actsAlong rest

/-- What is done up to the last of a row of occasions, and then. -/
theorem actsAlong_append_singleton (w : World) (past : List Occasion) (o : Occasion) :
    w.actsAlong (past ++ [o]) = w.actsAlong past ++ (w.meetAll past).actsAt o := by
  induction past generalizing w with
  | nil => exact List.append_nil _
  | cons first rest ih =>
    rw [List.cons_append, actsAlong, ih, actsAlong, List.append_assoc, meetAll_cons]

/-- Users are told nothing when time passes. -/
theorem replies_append_pass (w : World) (past : List Occasion) (millis : Nat) :
    w.replies (past ++ [.pass millis]) = w.replies past := by
  induction past generalizing w with
  | nil => rfl
  | cons o rest ih => cases o <;> simp [replies, ih]

/-! ## Removals that are carried out -/

variable {w : World} {rs : List Removal}

/-- Nothing that there is to see changes when removals are carried out but the store, and no time
passes. -/
theorem foldl_carryOut_unseen (rs : List Removal) (w : World) :
    (rs.foldl carryOut w).elapsed = w.elapsed ∧ (rs.foldl carryOut w).notices = w.notices ∧
      (rs.foldl carryOut w).adopted = w.adopted := by
  induction rs generalizing w with
  | nil => exact ⟨rfl, rfl, rfl⟩
  | cons r rest ih => exact ih (w.carryOut r)

/-- An act of a removal is a deletion that is done in a world of its time. -/
theorem of_mem_actsOfRemovals {act : Act} (hact : act ∈ w.actsOfRemovals rs) :
    ∃ r ∈ rs, act.doer = .removal r ∧ act.call = .remove r.localId ∧
      act.world.elapsed = w.elapsed := by
  induction rs generalizing w with
  | nil => cases hact
  | cons r rest ih =>
    rcases List.mem_cons.mp hact with rfl | hact
    · exact ⟨r, List.mem_cons_self, rfl, rfl, rfl⟩
    · obtain ⟨r', hr', hdone⟩ := ih hact
      exact ⟨r', List.mem_cons_of_mem r hr', hdone⟩

/-! ## The store from act to act -/

open Bustle (Linked)

variable {α : Type} {acts : List Act}

/-- The store is changed by the calls of a run and by nothing else. -/
theorem linked_calls (p : Procedure α) (doer : Doer) (h : Linked acts w.store) :
    Linked (acts ++ (w.calls p).map fun m => ⟨m, doer⟩) (w.run p).2.store := by
  induction p using Procedure.rest_induction generalizing w acts with
  | step p ih =>
    cases hnext : p.nextCall? with
    | none =>
      obtain ⟨a, rfl⟩ := Procedure.eq_done hnext
      rw [calls, List.map_nil, List.append_nil]
      exact h
    | some c =>
      have hcalled : Linked (acts ++ [⟨⟨w, c⟩, doer⟩]) (w.after c).store := h.append_singleton rfl
      rw [calls_eq_rest hnext, w.run_eq_rest hnext, List.map_cons, List.append_cons]
      cases hrest : w.rest p with
      | none => simpa using hcalled
      | some q => exact ih w c q hnext hrest hcalled

/-- The store is changed by the removals that are carried out and by nothing else. -/
theorem linked_foldl_carryOut (rs : List Removal) (h : Linked acts w.store) :
    Linked (acts ++ w.actsOfRemovals rs) (rs.foldl carryOut w).store := by
  induction rs generalizing w acts with
  | nil => simpa [actsOfRemovals] using h
  | cons r rest ih =>
    rw [actsOfRemovals, List.append_cons, List.foldl_cons]
    exact ih (h.append_singleton rfl)

/-- The store is changed by what is done along a row of occasions and by nothing else. -/
theorem linked_actsAlong (w : World) (past : List Occasion) :
    Linked (w.actsAlong past) (w.meetAll past).store := by
  induction past using List.reverseRecOn with
  | nil =>
    intro n act hact
    cases hact
  | append_singleton past o ih =>
    rw [actsAlong_append_singleton, meetAll_append_singleton]
    cases o with
    | request token op => exact linked_calls (op.procedure token) _ ih
    | setClock now =>
      rw [actsAt, List.append_nil]
      exact ih
    | pass millis => exact linked_foldl_carryOut _ ih

end World

end WaitingRoom
