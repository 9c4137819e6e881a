import WaitingRoom.Proofs.Desk.Cuts
import WaitingRoom.Proofs.Desk.Deeds
import WaitingRoom.Proofs.Desk.Replies

/-!
# Batches

A batch is as good as its parts asked for one by one, up to and including the first that does not
succeed. It leaves the world that they leave and makes the calls that they make, and nothing is
done for the parts that follow. The user is told what is told of the part that does not succeed,
or, if they all do, of the records that were written, in their order.
-/

namespace WaitingRoom

variable {α β γ : Type} {token : Token} {w : World}

/-- Whether what a user is told of a batch that has succeeded says what there is to say of its
parts: the records that were written, in their order, and nothing in other batches. -/
def Operation.Sums (told : List Reply) (reply : Reply) : Operation → Prop
  | setMany _ => ∃ devices : List Device, told = devices.map .record ∧ reply = .records devices
  | _ => reply = .nothing

/-- Whether a procedure attempts operations one by one: it leaves the world that they leave, and
makes the calls that they make. All of them succeed, none is skipped, and what the procedure
answers sums up what is told of them; or all but the last succeed, and what is told of the last
is told of the procedure, whatever would be told of its success. -/
structure World.Attempts (w : World) (token : Token) (p : Procedure (Except Failure γ))
    (attempted skipped : List Operation) (Sums : List Reply → γ → Prop) : Prop where
  world : (w.run p).2 = w.meetAll (attempted.map (.request token))
  calls : w.calls p = w.callsInTurn token attempted
  told :
    (skipped = [] ∧ ∃ (told : List Reply) (c : γ), w.replies (attempted.map (.request token)) =
        told.map (fun reply => .finished (.ok reply)) ∧ Sums told c ∧
      (w.run p).1 = .finished (.ok c)) ∨
    ∃ (told : List Reply) (last : Ending (Except Failure Reply)),
      w.replies (attempted.map (.request token)) =
        told.map (fun reply => .finished (.ok reply)) ++ [last] ∧ last.isSuccess = false ∧
      ∀ reply, (w.run p).1.told reply = last

/-- A success has a result. -/
theorem Ending.exists_of_isSuccess {e : Ending (Except Failure α)} (h : e.isSuccess = true) :
    ∃ a, e = .finished (.ok a) := by
  rcases e with (_ | a) | _
  · cases h
  · exact ⟨a, rfl⟩
  · cases h

/-- What is told of an ending is a success if the ending is. -/
theorem Ending.isSuccess_told (e : Ending (Except Failure α)) (reply : α → Reply) :
    (e.told reply).isSuccess = e.isSuccess := by
  rcases e with (_ | _) | _ <;> rfl

namespace World

/-! ## What follows a procedure -/

section Following

variable {p : Procedure (Except Failure α)}

/-- No calls are made after a failure. -/
theorem calls_andThen_of_failure (hfails : (w.run p).1.isSuccess = false)
    (f : α → Procedure (Except Failure β)) : w.calls (p.andThen f) = w.calls p := by
  rw [Procedure.andThen, calls_bind]
  rcases hrun : w.run p with ⟨(_ | a) | _, v⟩
  · exact List.append_nil _
  · rw [hrun] at hfails
    cases hfails
  · exact List.append_nil _

/-- A failure is told as it is, whatever would be told of a success. -/
theorem told_andThen_of_failure (hfails : (w.run p).1.isSuccess = false)
    (f : α → Procedure (Except Failure β)) (reply : α → Reply) (other : β → Reply) :
    (w.run (p.andThen f)).1.told other = (w.run p).1.told reply := by
  rw [run_andThen]
  rcases hrun : w.run p with ⟨(_ | a) | _, v⟩
  · rfl
  · rw [hrun] at hfails
    cases hfails
  · rfl

/-- A success is answered in other words. -/
theorem run_answering_of_ok {a : α} (hrun : (w.run p).1 = .finished (.ok a)) (g : α → β) :
    (w.run (p.andThen fun a => .done (.ok (g a)))).1 = .finished (.ok (g a)) := by
  rw [run_andThen]
  rcases hp : w.run p with ⟨ending, v⟩
  rw [hp] at hrun
  subst hrun
  rfl

/-- What is told of an answer in other words is told of the answer. -/
theorem told_answering (p : Procedure (Except Failure α)) (g : α → β) (reply : β → Reply) :
    (w.run (p.andThen fun a => .done (.ok (g a)))).1.told reply =
      (w.run p).1.told fun a => reply (g a) := by
  rw [run_andThen]
  rcases w.run p with ⟨(_ | a) | _, v⟩ <;> rfl

end Following

/-! ## Operations one by one -/

/-- Whether a procedure passes for an operation: it does the same, and the same is told of it. -/
structure PassesFor (p : Procedure (Except Failure α)) (token : Token) (op : Operation)
    (reply : α → Reply) : Prop where
  world : ∀ w : World, (w.run p).2 = w.perform token op
  calls : ∀ w : World, w.calls p = w.callsOf token op
  told : ∀ w : World, (w.run p).1.told reply = w.replyTo token op

namespace Attempts

variable {p : Procedure (Except Failure α)} {f : α → Procedure (Except Failure γ)}
  {op : Operation} {reply : α → Reply} {attempted skipped : List Operation}
  {Sums : List Reply → γ → Prop}

/-- A procedure that answers in other words attempts the same operations. -/
theorem answering {Others : List Reply → α → Prop}
    (h : w.Attempts token p attempted skipped Others) (g : α → γ)
    (hsums : ∀ told a, Others told a → Sums told (g a)) :
    w.Attempts token (p.andThen fun a => .done (.ok (g a))) attempted skipped Sums := by
  refine ⟨(run_answering p g w).trans h.world, (calls_answering p g w).trans h.calls, ?_⟩
  rcases h.told with ⟨hskipped, told, a, htold, ha, hrun⟩ | ⟨told, last, htold, hlast, hrun⟩
  · exact .inl ⟨hskipped, told, g a, htold, hsums told a ha, run_answering_of_ok hrun g⟩
  · exact .inr ⟨told, last, htold, hlast, fun reply => (told_answering p g reply).trans (hrun _)⟩

/-- Where the first of two procedures does not succeed nothing more is attempted. -/
theorem of_failure (hpart : PassesFor p token op reply)
    (hfails : (w.run p).1.isSuccess = false) (skipped : List Operation) :
    w.Attempts token (p.andThen f) [op] skipped Sums := by
  have htold := hpart.told w
  have hreply : (w.replyTo token op).isSuccess = false := by
    rw [← htold, Ending.isSuccess_told, hfails]
  constructor
  · exact (run_andThen_of_failure (by simp [hfails]) f).trans (hpart.world w)
  · rw [calls_andThen_of_failure hfails, hpart.calls]
    exact (List.append_nil _).symm
  · refine .inr ⟨[], w.replyTo token op, rfl, hreply, fun other => ?_⟩
    exact (told_andThen_of_failure hfails f reply other).trans htold

/-- Where the first of two procedures succeeds what the second attempts follows. -/
theorem of_success (hpart : PassesFor p token op reply) {a : α} {v : World}
    (hrun : w.run p = (.finished (.ok a), v))
    (hrest : v.Attempts token (f a) attempted skipped fun told c => Sums (reply a :: told) c) :
    w.Attempts token (p.andThen f) (op :: attempted) skipped Sums := by
  have hthen : w.run (p.andThen f) = v.run (f a) := by rw [run_andThen, hrun]
  have hperform : w.perform token op = v := by rw [← hpart.world, hrun]
  have hreply : w.replyTo token op = .finished (.ok (reply a)) := by
    rw [← hpart.told, hrun]
    rfl
  constructor
  · rw [hthen, hrest.world, List.map_cons, meetAll_cons, meet, hperform]
  · rw [callsInTurn, Procedure.andThen, calls_bind, hrun, hpart.calls, hperform]
    exact congrArg _ hrest.calls
  · rw [List.map_cons, replies, hperform, hreply, hthen]
    rcases hrest.told with ⟨hskipped, told, c, htold, hc, hend⟩ | ⟨told, last, htold, hlast⟩
    · exact .inl ⟨hskipped, reply a :: told, c, by rw [htold]; rfl, hc, hend⟩
    · exact .inr ⟨reply a :: told, last, by rw [htold]; rfl, hlast⟩

end Attempts

/-- A procedure for each of the items attempts the operations for them. -/
theorem attempts_each {p : α → Procedure (Except Failure β)} {part : α → Operation}
    {reply : β → Reply} (hpart : ∀ a, PassesFor (p a) token (part a) reply) (items : List α)
    (w : World) :
    ∃ attempted skipped, items.map part = attempted ++ skipped ∧
      w.Attempts token (Procedure.each p items) attempted skipped
        fun told bs => told = bs.map reply := by
  induction items generalizing w with
  | nil => exact ⟨[], [], rfl, rfl, rfl, .inl ⟨rfl, [], [], rfl, rfl, rfl⟩⟩
  | cons a rest ih =>
    cases hsucceeds : (w.run (p a)).1.isSuccess with
    | false => exact ⟨[part a], rest.map part, rfl, .of_failure (hpart a) hsucceeds _⟩
    | true =>
      obtain ⟨b, hb⟩ := Ending.exists_of_isSuccess hsucceeds
      -- the others are attempted in the world that the first has left
      obtain ⟨attempted, skipped, hparts, hrest⟩ := ih (w.run (p a)).2
      refine ⟨part a :: attempted, skipped, by rw [List.map_cons, hparts]; rfl, ?_⟩
      refine .of_success (hpart a) (Prod.ext hb rfl) (hrest.answering (b :: ·) ?_)
      rintro told bs rfl
      rfl

/-- It attempts the same operations if its results are forgotten, of which there is nothing to
tell. -/
theorem attempts_forget {p : α → Procedure (Except Failure β)} (part : α → Operation)
    (hpart : ∀ a, PassesFor (p a) token (part a) fun _ => .nothing) (items : List α) (w : World)
    {Sums : List Reply → Unit → Prop} (hsums : ∀ told, Sums told ()) :
    ∃ attempted skipped, items.map part = attempted ++ skipped ∧
      w.Attempts token (Desk.forget (Procedure.each p items)) attempted skipped Sums := by
  obtain ⟨attempted, skipped, hparts, h⟩ := attempts_each hpart items w
  exact ⟨attempted, skipped, hparts, h.answering (fun _ => ()) fun told _ _ => hsums told⟩

/-- A batch attempts its parts one by one. -/
theorem attempts_parts (w : World) (token : Token) {op : Operation} (hbatch : op.parts ≠ [op]) :
    ∃ attempted skipped, op.parts = attempted ++ skipped ∧
      w.Attempts token (op.procedure token) attempted skipped
        fun told result => op.Sums told (op.reply result) := by
  cases op with
  | list | read | set | use | delete | hide | «show» => exact absurd rfl hbatch
  | setMany payloads =>
    have hset (d : Device) : PassesFor (Desk.set token d) token (.set d) .record :=
      ⟨fun _ => rfl, fun _ => rfl, fun _ => rfl⟩
    obtain ⟨attempted, skipped, hparts, h⟩ := attempts_each hset payloads w
    refine ⟨attempted, skipped, hparts, h.world, h.calls, h.told.imp_left ?_⟩
    rintro ⟨hskipped, told, ds, htold, hds, hrun⟩
    exact ⟨hskipped, told, ds, htold, ⟨ds, hds, rfl⟩, hrun⟩
  | useMany ids =>
    exact attempts_forget .use (fun _ => ⟨fun _ => rfl, fun _ => rfl, fun _ => rfl⟩) ids w
      fun _ => rfl
  | deleteMany ids =>
    exact attempts_forget .delete (fun _ => ⟨fun _ => rfl, fun _ => rfl, fun _ => rfl⟩) ids w
      fun _ => rfl
  | hideMany ids =>
    exact attempts_forget .hide (fun _ => ⟨fun _ => rfl, fun _ => rfl, fun _ => rfl⟩) ids w
      fun _ => rfl
  | showMany ids =>
    exact attempts_forget .show (fun _ => ⟨fun _ => rfl, fun _ => rfl, fun _ => rfl⟩) ids w
      fun _ => rfl

end World

/-- **Batches.** Of the parts of a batch some are attempted and the others are skipped. The batch
leaves the world that the attempted parts leave when they are asked for one by one, and makes the
calls that they make and no others. Either all parts are attempted and succeed, and the user is
told of the records that were written, in their order, or of nothing; or all attempted parts but
the last succeed, and the user is told what is told of the last, which is a failure where every
call is answered. -/
theorem batch_is_longest_successful_prefix (w : World) (token : Token) {op : Operation}
    (hbatch : op.parts ≠ [op]) :
    ∃ attempted skipped : List Operation, op.parts = attempted ++ skipped ∧
      let row : List Occasion := attempted.map (.request token)
      w.perform token op = w.meetAll row ∧
      w.callsOf token op = w.callsInTurn token attempted ∧
      ((skipped = [] ∧ ∃ (told : List Reply) (reply : Reply),
          w.replies row = told.map (fun reply => .finished (.ok reply)) ∧
          w.replyTo token op = .finished (.ok reply) ∧ op.Sums told reply) ∨
        ∃ (told : List Reply) (last : Ending (Except Failure Reply)),
          w.replies row = told.map (fun reply => .finished (.ok reply)) ++ [last] ∧
          w.replyTo token op = last ∧ last.isSuccess = false ∧
          (w.Responds → ∃ f, last = .finished (.error f))) := by
  obtain ⟨attempted, skipped, hparts, hworld, hcalls, htold⟩ := w.attempts_parts token hbatch
  refine ⟨attempted, skipped, hparts, hworld, hcalls, htold.imp ?_ ?_⟩
  · rintro ⟨hskipped, told, result, htold, hsums, hrun⟩
    exact ⟨hskipped, told, op.reply result, htold, by rw [World.replyTo, hrun]; rfl, hsums⟩
  · rintro ⟨told, last, htold, hlast, hrun⟩
    have hreply : w.replyTo token op = last := hrun op.reply
    refine ⟨told, last, htold, hreply, hlast, fun hresponds => ?_⟩
    obtain ⟨r, v, hfinished⟩ := World.run_finishes (p := op.procedure token) hresponds.not_hangs
    rw [World.replyTo, hfinished] at hreply
    cases r with
    | error f => exact ⟨f, hreply.symm⟩
    | ok a =>
      rw [← hreply] at hlast
      cases hlast

/-- A user's lamp at a desk at which removals wait a minute. -/
def litDesk : World :=
  { minuteDesk with
    service := { store := Store.empty.insert { Device.named "d1" "lamp" with userId := "alice" } } }

/-- A lamp cannot be used twice, not even in one batch: what is told of the batch is that the lamp
is not there any more, and it has been adopted once. -/
theorem second_use_of_lamp_fails :
    let token : Token := ⟨"", "alice", Time.Instant.epoch⟩
    let batch : Operation := .useMany ["d1", "d1", "d1"]
    batch.parts ≠ [batch] ∧ ∃ attempted skipped : List Operation,
      batch.parts = attempted ++ skipped ∧
      litDesk.perform token batch = litDesk.meetAll (attempted.map (.request token)) ∧
      (litDesk.perform token batch).adopted.length = 1 ∧
      ∃ told : List Reply, litDesk.replies (attempted.map (.request token)) =
        told.map (fun reply => .finished (.ok reply)) ++
          [.finished (.error (.noDevice "d1"))] := by
  intro token batch
  have hbatch : batch.parts ≠ [batch] := by simp [batch, Operation.parts]
  have hreply : litDesk.replyTo token batch = .finished (.error (.noDevice "d1")) := rfl
  obtain ⟨attempted, skipped, hparts, hworld, -, htold⟩ :=
    batch_is_longest_successful_prefix litDesk token hbatch
  refine ⟨hbatch, attempted, skipped, hparts, hworld, rfl, ?_⟩
  rcases htold with ⟨-, -, reply, -, hok, -⟩ | ⟨told, last, htold, hlast, -⟩
  · rw [hreply] at hok
    cases hok
  · rw [hreply] at hlast
    exact ⟨told, hlast ▸ htold⟩

end WaitingRoom
