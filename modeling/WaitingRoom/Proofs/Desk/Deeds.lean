import WaitingRoom.Proofs.Desk.Outcomes

/-!
# What has been done

The operations that succeed along a row of occasions are its history. The parts of a batch
count one by one, up to the first that does not succeed. Most of what is to be known about a
record depends on the last deed of some kind, so this file also says what it is for a deed
to be the last that matters.
-/

namespace WaitingRoom

open Time (Instant)

/-- Whether an operation ended in success. -/
def Ending.isSuccess {α : Type} : Ending (Except Failure α) → Bool
  | .finished (.ok _) => true
  | _ => false

/-- An operation that succeeded, who asked for it, and what the clock said. -/
structure Deed where
  user : String
  time : Instant
  operation : Operation

namespace World

variable {α β : Type}

/-- What operations come to that are done one after the other until one of them does not
succeed: those that do, and the world in the end. -/
def inTurn (w : World) (token : Token) : List Operation → List Deed × World
  | [] => ([], w)
  | op :: rest =>
    if (w.run (op.procedure token)).1.isSuccess then
      let (deeds, v) := (w.perform token op).inTurn token rest
      (⟨token.userId, w.clock, op⟩ :: deeds, v)
    else ([], w.perform token op)

/-- What succeeds in the course of some occasions. -/
def history (w : World) : List Occasion → List Deed
  | [] => []
  | .request token op :: rest =>
    (w.inTurn token op.parts).1 ++ (w.perform token op).history rest
  | .setClock now :: rest => (w.meet (.setClock now)).history rest
  | .pass millis :: rest => (w.meet (.pass millis)).history rest

/-- What follows the success of a procedure does not happen unless there is one. -/
theorem run_andThen_of_failure {p : Procedure (Except Failure α)} {w : World}
    (hfails : ¬ (w.run p).1.isSuccess) (f : α → Procedure (Except Failure β)) :
    (w.run (p.andThen f)).2 = (w.run p).2 := by
  rw [run_andThen]
  rcases hp : w.run p with ⟨ending, v⟩
  rw [hp] at hfails
  cases ending with
  | hung => rfl
  | finished r =>
    cases r with
    | error e => rfl
    | ok a => exact absurd rfl hfails

/-- Answering something else changes nothing in the world. -/
theorem run_answering (p : Procedure (Except Failure α)) (g : α → β) (w : World) :
    (w.run (p.andThen fun a => .done (.ok (g a)))).2 = (w.run p).2 := by
  rw [run_andThen]
  rcases w.run p with ⟨ending, v⟩
  cases ending with
  | hung => rfl
  | finished r => cases r <;> rfl

/-- A batch leaves the world as its parts do when they are done in turn, where a part does
the same as the procedure for its item. -/
theorem run_each (token : Token) (p : α → Procedure (Except Failure β)) (part : α → Operation)
    (hpart : ∀ a v, (World.run ((part a).procedure token) v).1.isSuccess =
      (World.run (p a) v).1.isSuccess ∧ v.perform token (part a) = (World.run (p a) v).2)
    (items : List α) (w : World) :
    (w.run (Procedure.each p items)).2 = (w.inTurn token (items.map part)).2 := by
  induction items generalizing w with
  | nil => rfl
  | cons a rest ih =>
    obtain ⟨hsuccess, hafter⟩ := hpart a w
    rw [List.map_cons, inTurn, hsuccess, hafter, Procedure.each]
    split
    · rename_i hok
      rcases hp : w.run (p a) with ⟨ending, v⟩
      rw [hp] at hok
      rw [run_andThen, hp]
      cases ending with
      | hung => cases hok
      | finished r =>
        cases r with
        | error e => cases hok
        | ok b => exact (run_answering (Procedure.each p rest) (b :: ·) v).trans (ih v)
    · rename_i hfails
      exact run_andThen_of_failure hfails _

/-- An operation leaves the world as its parts do when they are done in turn. -/
theorem perform_eq_inTurn (w : World) (token : Token) (op : Operation) :
    w.perform token op = (w.inTurn token op.parts).2 := by
  cases op with
  | setMany payloads =>
    exact run_each token (Desk.set token) .set (fun _ _ => ⟨rfl, rfl⟩) payloads w
  | useMany ids =>
    exact (run_answering _ _ w).trans
      (run_each token (Desk.use token) .use (fun _ _ => ⟨rfl, rfl⟩) ids w)
  | deleteMany ids =>
    exact (run_answering _ _ w).trans
      (run_each token (Desk.delete token) .delete (fun _ _ => ⟨rfl, rfl⟩) ids w)
  | hideMany ids =>
    exact (run_answering _ _ w).trans
      (run_each token (Desk.hide token) .hide (fun _ _ => ⟨rfl, rfl⟩) ids w)
  | showMany ids =>
    exact (run_answering _ _ w).trans
      (run_each token (Desk.show token) .show (fun _ _ => ⟨rfl, rfl⟩) ids w)
  | list | read | set | use | delete | hide | «show» =>
    simp only [Operation.parts, inTurn]
    split <;> rfl

end World

/-! ## The last deed that matters -/

/-- Whether some deed has the property, in view of the deeds before it, and no later deed
puts an end to that. -/
def Latest (past : List Deed) (P : List Deed → Deed → Prop) (Ends : Deed → Prop) : Prop :=
  ∃ before d after, past = before ++ d :: after ∧ P before d ∧ ∀ e ∈ after, ¬ Ends e

/-- Nothing was done last where nothing was done. -/
theorem not_latest_nil {P : List Deed → Deed → Prop} {Ends : Deed → Prop} :
    ¬ Latest [] P Ends := by
  rintro ⟨before, d, after, hpast, -, -⟩
  simp at hpast

/-- One more deed is the last that matters, or it was the last before and this one does not
put an end to that. -/
theorem latest_append_singleton {past : List Deed} {P : List Deed → Deed → Prop}
    {Ends : Deed → Prop} {d : Deed} :
    Latest (past ++ [d]) P Ends ↔ P past d ∨ Latest past P Ends ∧ ¬ Ends d := by
  constructor
  · rintro ⟨before, e, after, hpast, hP, hafter⟩
    rcases after.eq_nil_or_concat with rfl | ⟨after, last, rfl⟩
    · obtain ⟨rfl, hlast⟩ := List.append_inj' hpast rfl
      obtain rfl := List.singleton_inj.mp hlast
      exact .inl hP
    · rw [List.concat_eq_append] at hpast hafter
      rw [← List.cons_append, ← List.append_assoc] at hpast
      obtain ⟨rfl, hlast⟩ := List.append_inj' hpast rfl
      obtain rfl := List.singleton_inj.mp hlast
      refine .inr ⟨⟨before, e, after, rfl, hP, fun e' he' => hafter e' ?_⟩, hafter d ?_⟩
      · exact List.mem_append_left _ he'
      · exact List.mem_append_right _ (List.mem_singleton_self d)
  · rintro (hP | ⟨⟨before, e, after, rfl, hP, hafter⟩, hd⟩)
    · exact ⟨past, d, [], rfl, hP, fun e he => absurd he List.not_mem_nil⟩
    · refine ⟨before, e, after ++ [d], by simp, hP, fun e' he' => ?_⟩
      rcases List.mem_append.mp he' with he' | he'
      · exact hafter e' he'
      · rw [List.mem_singleton.mp he']
        exact hd

end WaitingRoom
