import WaitingRoom.Proofs.Desk.Logs

/-!
# Handovers

A device is handed over where the device manager is asked to adopt it and does. Its removal is put
off in the same instant, if a wait is configured, whatever becomes of its record; nothing else puts
removals off.
-/

namespace WaitingRoom

variable {α β : Type}

/-! ## What acts hand over, put off and carry out -/

/-- That a device was handed over: under which local id, and when. -/
structure Handover where
  localId : String
  time : Nat
  deriving DecidableEq, Repr

/-- The removal that is put off for a device that was handed over, if a wait is configured. -/
def Handover.removal? (wait : Option Nat) (h : Handover) : Option Removal :=
  wait.map fun wait => ⟨h.localId, h.time + wait⟩

/-- What a call hands over: the device that the device manager is asked to adopt, if it does. -/
def Moment.handover? (m : Moment) : Option Handover :=
  match m.call with
  | .adopt t d =>
    match (m.world.adoptCall t d).1 with
    | some (.ok _) => some ⟨d.localId, m.world.elapsed⟩
    | _ => none
  | _ => none

/-- The removal that a call puts off. -/
def Moment.putOff? (m : Moment) : Option Removal :=
  match m.call with
  | .removeLater id => m.world.wait.map fun wait => ⟨id, m.world.elapsed + wait⟩
  | _ => none

/-- The removal that an act carries out. -/
def Act.removal? (act : Act) : Option Removal :=
  match act.doer with
  | .removal r => some r
  | _ => none

/-- The devices that are handed over in a row of acts. -/
def handovers (acts : List Act) : List Handover := acts.filterMap fun act => act.handover?

/-- The removals that are put off in a row of acts. -/
def putOffs (acts : List Act) : List Removal := acts.filterMap fun act => act.putOff?

/-- The removals that are carried out in a row of acts. -/
def carriedOut (acts : List Act) : List Removal := acts.filterMap Act.removal?

@[simp] theorem handovers_append (acts more : List Act) :
    handovers (acts ++ more) = handovers acts ++ handovers more := List.filterMap_append

@[simp] theorem putOffs_append (acts more : List Act) :
    putOffs (acts ++ more) = putOffs acts ++ putOffs more := List.filterMap_append

@[simp] theorem carriedOut_append (acts more : List Act) :
    carriedOut (acts ++ more) = carriedOut acts ++ carriedOut more := List.filterMap_append

/-! ## One removal for each handover -/

/-- Whether a call neither hands anything over nor puts anything off. -/
def Call.isPlain : Call → Bool
  | .adopt .. | .removeLater _ => false
  | _ => true

namespace World

/-- Whether for each device that is handed over in a run a removal is put off, if a wait is
configured, and no other is. -/
def Covers (w : World) (p : Procedure α) : Prop :=
  (w.calls p).filterMap Moment.putOff? =
    ((w.calls p).filterMap Moment.handover?).filterMap (Handover.removal? w.wait)

namespace Covers

variable {w : World}

theorem of_done {a : α} : w.Covers (.done a) := rfl

/-- A call that neither hands anything over nor puts anything off, and what follows it. -/
theorem of_rest {p : Procedure α} {c : Call} (hnext : p.nextCall? = some c)
    (hplain : c.isPlain = true) (hrest : ∀ q, w.rest p = some q → (w.after c).Covers q) :
    w.Covers p := by
  have hhandover : Moment.handover? ⟨w, c⟩ = none := by
    cases c with
    | adopt t d => cases hplain
    | _ => rfl
  have hputOff : Moment.putOff? ⟨w, c⟩ = none := by
    cases c with
    | removeLater id => cases hplain
    | _ => rfl
  rw [Covers, calls_eq_rest hnext, List.filterMap_cons_none hhandover,
    List.filterMap_cons_none hputOff, ← (w.after_times c).2]
  cases hq : w.rest p with
  | none => rfl
  | some q => exact hrest q hq

/-- The removal of a device is put off as soon as it is handed over, and then something follows. -/
theorem of_adopt {t : Token} {d : Device} {next : Except Failure Unit → Procedure α}
    {q : Procedure α} (hfailed : ∀ f, ∃ a, next (.error f) = .done a)
    (htaken : next (.ok ()) = .removeLater d.localId q)
    (hq : ((w.after (.adopt t d)).after (.removeLater d.localId)).Covers q) :
    w.Covers (.adopt t d next) := by
  have hcalls := calls_eq_rest (w := w) (p := .adopt t d next) rfl
  have hrest : w.rest (.adopt t d next) = (w.adoptCall t d).1.map next := rfl
  rcases hanswer : (w.adoptCall t d).1 with _ | (f | _)
  · rw [hrest, hanswer] at hcalls
    simp [Covers, hcalls, Moment.putOff?, Moment.handover?, hanswer]
  · obtain ⟨a, ha⟩ := hfailed f
    rw [hrest, hanswer, Option.map_some, ha] at hcalls
    simp [Covers, hcalls, calls, Moment.putOff?, Moment.handover?, hanswer]
  · rw [hrest, hanswer, Option.map_some, htaken] at hcalls
    obtain ⟨helapsed, hwait⟩ := w.after_times (.adopt t d)
    rw [Covers, ((w.after (.adopt t d)).after_times (.removeLater d.localId)).2, hwait] at hq
    -- the removal is put off in the same instant
    have hputOff : Moment.putOff? ⟨w.after (.adopt t d), .removeLater d.localId⟩ =
        Handover.removal? w.wait ⟨d.localId, w.elapsed⟩ := by
      rw [Moment.putOff?, Handover.removal?, helapsed, hwait]
    have hhandover : Moment.handover? ⟨w, .adopt t d⟩ = some ⟨d.localId, w.elapsed⟩ := by
      simp only [Moment.handover?, hanswer]
    replace hcalls : w.calls (.adopt t d next) = ⟨w, .adopt t d⟩ ::
        ⟨w.after (.adopt t d), .removeLater d.localId⟩ ::
        ((w.after (.adopt t d)).after (.removeLater d.localId)).calls q := hcalls
    have hnobody : Moment.handover? ⟨w.after (.adopt t d), .removeLater d.localId⟩ = none := rfl
    rw [Covers, hcalls, List.filterMap_cons_none rfl, List.filterMap_cons_some hhandover,
      List.filterMap_cons_none hnobody, List.filterMap_cons, List.filterMap_cons, hputOff, hq]

/-- Two procedures of which the second follows the success of the first. -/
theorem andThen {p : Procedure (Except Failure α)} {f : α → Procedure (Except Failure β)}
    (hp : w.Covers p) (hf : ∀ a v, w.run p = (.finished (.ok a), v) → v.Covers (f a)) :
    w.Covers (p.andThen f) := by
  rw [Covers, Procedure.andThen, calls_bind, List.filterMap_append, List.filterMap_append,
    List.filterMap_append, ← hp]
  congr 1
  rcases hrun : w.run p with ⟨(_ | a) | _, v⟩
  · rfl
  · have hwait := (run_times p w).2
    rw [hrun] at hwait
    rw [← hwait]
    exact hf a v hrun
  · rfl

/-- A procedure for each of the items. -/
theorem each {p : α → Procedure (Except Failure β)} (hp : ∀ a w, World.Covers w (p a))
    (items : List α) (w : World) : w.Covers (Procedure.each p items) := by
  induction items generalizing w with
  | nil => exact of_done
  | cons a rest ih => exact (hp a w).andThen fun _ v _ => (ih v).andThen fun _ _ _ => of_done

end Covers

end World

namespace Desk

open World (Covers)

variable {token : Token}

/-- Reading a record that is to be one's own. -/
theorem readOwned_covers (w : World) (id : String) : w.Covers (readOwned token id) := by
  refine .of_rest rfl rfl fun q hq => ?_
  obtain ⟨found, -, rfl⟩ := Option.map_eq_some_iff.mp hq
  exact .of_done

/-- Listing. -/
theorem list_covers (w : World) (o : ListOptions) : w.Covers (list token o) := by
  refine .of_rest rfl rfl fun q hq => ?_
  obtain ⟨found, -, rfl⟩ := Option.map_eq_some_iff.mp hq
  exact .of_done

/-- Giving notice of a success. -/
theorem notice_covers (w : World) (user : String) (e : Event) (r : Except Failure Unit) :
    w.Covers (match r with
      | .ok () => .notify user e (.done (.ok ()))
      | .error f => .done (.error f) : Procedure (Except Failure Unit)) := by
  cases r with
  | error f => exact .of_done
  | ok _ =>
    refine .of_rest rfl rfl ?_
    rintro _ ⟨⟩
    exact .of_done

/-- Writing a record. -/
theorem store_covers (w : World) (user : String) (d : Device) (id : String) :
    w.Covers (store user d id) := by
  refine .of_rest rfl rfl fun q hq => ?_
  obtain ⟨r, -, rfl⟩ := Option.map_eq_some_iff.mp hq
  exact notice_covers _ user ⟨.set, id⟩ r

/-- Deleting a record. -/
theorem discard_covers (w : World) (user id : String) (change : Change) :
    w.Covers (discard user id change) := by
  refine .of_rest rfl rfl fun q hq => ?_
  obtain ⟨r, -, rfl⟩ := Option.map_eq_some_iff.mp hq
  exact notice_covers _ user ⟨change, id⟩ r

/-- Writing a record for a payload. -/
theorem set_covers (payload : Device) (w : World) : w.Covers (set token payload) := by
  rw [set]
  split
  · exact .of_done
  · refine .of_rest rfl rfl ?_
    rintro _ ⟨⟩
    refine .of_rest rfl rfl fun q hq => ?_
    obtain ⟨found, -, rfl⟩ := Option.map_eq_some_iff.mp hq
    cases prepared token w.clock payload found with
    | error f => exact .of_done
    | ok d => exact (store_covers _ _ d _).andThen fun _ _ _ => .of_done

/-- Hiding or showing a record. -/
theorem setHidden_covers (hidden : Bool) (id : String) (w : World) :
    w.Covers (setHidden token hidden id) :=
  (readOwned_covers w id).andThen fun _ v _ => store_covers v _ _ id

/-- Deleting one's own record. -/
theorem delete_covers (id : String) (w : World) : w.Covers (delete token id) :=
  (readOwned_covers w id).andThen fun _ v _ => discard_covers v _ id .delete

/-- Handing over one's own record. The removal is put off as soon as the device manager has taken
over the device, before anything is deleted. -/
theorem use_covers (id : String) (w : World) : w.Covers (use token id) := by
  refine (readOwned_covers w id).andThen fun d v hread => ?_
  obtain rfl : d.localId = id := Store.localId_of_find? (run_readOwned hread).2
  exact .of_adopt (fun f => ⟨.error f, rfl⟩) rfl (discard_covers _ _ _ .use)

end Desk

namespace World

variable {w : World}

/-- For each device that is handed over in an operation a removal is put off. -/
theorem covers_operation (w : World) (token : Token) (op : Operation) :
    w.Covers (op.procedure token) := by
  have hforget {α β : Type} {p : α → Procedure (Except Failure β)}
      (hp : ∀ a w, World.Covers w (p a)) (items : List α) :
      w.Covers (Desk.forget (Procedure.each p items)) :=
    (Covers.each hp items w).andThen fun _ _ _ => .of_done
  cases op with
  | list o => exact Desk.list_covers w o
  | read id => exact Desk.readOwned_covers w id
  | set payload => exact Desk.set_covers payload w
  | use id => exact Desk.use_covers id w
  | delete id => exact Desk.delete_covers id w
  | hide id => exact Desk.setHidden_covers true id w
  | «show» id => exact Desk.setHidden_covers false id w
  | setMany payloads => exact .each Desk.set_covers payloads w
  | useMany ids => exact hforget Desk.use_covers ids
  | deleteMany ids => exact hforget Desk.delete_covers ids
  | hideMany ids => exact hforget (Desk.setHidden_covers true) ids
  | showMany ids => exact hforget (Desk.setHidden_covers false) ids

/-! ## Removals that wait -/

/-- The removals that wait after a run are those that waited before it and those that it has put
off. -/
theorem run_removals_eq (p : Procedure α) (w : World) :
    (w.run p).2.removals = w.removals ++ (w.calls p).filterMap Moment.putOff? := by
  induction p using Procedure.rest_induction generalizing w with
  | step p ih =>
    cases hnext : p.nextCall? with
    | none =>
      obtain ⟨a, rfl⟩ := Procedure.eq_done hnext
      exact (List.append_nil _).symm
    | some c =>
      have hafter : (w.after c).removals = w.removals ++ (Moment.putOff? ⟨w, c⟩).toList := by
        rw [after_removals]
        cases c with
        | removeLater id => cases hwait : w.wait <;> simp [Moment.putOff?, hwait]
        | _ => exact (List.append_nil _).symm
      have hcons (later : List Moment) : (⟨w, c⟩ :: later).filterMap Moment.putOff? =
          (Moment.putOff? ⟨w, c⟩).toList ++ later.filterMap Moment.putOff? := by
        rw [List.filterMap_cons]
        cases Moment.putOff? ⟨w, c⟩ <;> rfl
      rw [calls_eq_rest hnext, w.run_eq_rest hnext, hcons, ← List.append_assoc, ← hafter]
      cases hrest : w.rest p with
      | none => exact (List.append_nil _).symm
      | some q => exact ih w c q hnext hrest (w.after c)

end World

end WaitingRoom
