import WaitingRoom.Proofs.Desk.Effects

/-!
# Operations that are cut off

A batch hangs at one of its parts. The parts before have been carried out in their order, each
with its full effect; the part at which the batch hangs has changed nothing but that a record
that was to be deleted may have been handed over; and of the parts after it nothing has been
begun.
-/

namespace WaitingRoom

variable {α β : Type} {token : Token} {w u v : World}

/-- Whether operations on one record have been carried out one after the other: each of them
has succeeded and had its full effect. -/
inductive CarriedOut (token : Token) : World → List Operation → World → Prop
  | nil (w : World) : CarriedOut token w [] w
  | cons {w v u : World} {op : Operation} {rest : List Operation} {a : op.Result}
      (hrun : w.run (op.procedure token) = (.finished (.ok a), v))
      (heffect : op.TakesEffect token w v) (hrest : CarriedOut token v rest u) :
      CarriedOut token w (op :: rest) u

/-- The notices that were given are those of the operations, in their order. -/
theorem CarriedOut.notices {ops : List Operation} (h : CarriedOut token w ops u) :
    u.notices = w.notices ++ ops.flatMap (·.notices token) := by
  induction h with
  | nil => simp
  | cons hrun heffect hrest ih => simp [ih, heffect.notices]

/-- The calls of operations that are carried out one after the other. -/
def World.callsInTurn (w : World) (token : Token) : List Operation → List Moment
  | [] => []
  | op :: rest => w.callsOf token op ++ (w.perform token op).callsInTurn token rest

/-- Whether operations that are to be carried out one after the other, with certain calls in
all, are cut off by a call: some have been carried out, the call is the last of the next one,
and nothing has been done for those that follow. -/
structure CutOff (token : Token) (w : World) (ops : List Operation) (calls : List Moment)
    (m : Moment) (before : List Operation) (part : Operation) (later : List Operation)
    (u : World) : Prop where
  parts : ops = before ++ part :: later
  carriedOut : CarriedOut token w before u
  calls : calls = w.callsInTurn token before ++ u.callsOf token part
  last : (u.callsOf token part).getLast? = some m
  left : m.world.ledger = part.ledgerAt token u m.call

/-- Answering something else costs no calls. -/
theorem World.calls_answering (p : Procedure (Except Failure α)) (g : α → β) (w : World) :
    w.calls (p.andThen fun a => .done (.ok (g a))) = w.calls p := by
  rw [Procedure.andThen, calls_bind]
  rcases w.run p with ⟨ending, v⟩
  cases ending with
  | hung => exact List.append_nil _
  | finished r => cases r <;> exact List.append_nil _

/-- The calls of a batch are those for its first item and, if that succeeds, those for the
others. -/
theorem World.calls_each_cons (p : α → Procedure (Except Failure β)) (a : α) (rest : List α)
    (w : World) :
    w.calls (Procedure.each p (a :: rest)) = w.calls (p a) ++ match w.run (p a) with
      | (.finished (.ok _), v) => v.calls (Procedure.each p rest)
      | _ => [] := by
  rw [Procedure.each, Procedure.andThen, calls_bind]
  rcases w.run (p a) with ⟨ending, v⟩
  cases ending with
  | hung => rfl
  | finished r =>
    cases r with
    | error f => rfl
    | ok b => exact congrArg _ (calls_answering ..)

/-- An operation on one record that hangs is cut off at its last call. -/
theorem cutOff_single {op : Operation} (hsingle : op.parts = [op]) {m : Moment}
    (hm : m ∈ w.callsOf token op) (hhangs : m.Hangs) :
    CutOff token w op.parts (w.callsOf token op) m [] op [] w where
  parts := hsingle
  carriedOut := .nil w
  calls := rfl
  last := (World.run_of_hangs hm hhangs).2
  left := (op.leaves_clean token w hsingle).hung m hm hhangs

/-- Whether a procedure does for each item what an operation on one record does. -/
structure DoesParts (token : Token) (p : α → Procedure (Except Failure β))
    (part : α → Operation) : Prop where
  single : ∀ a, (part a).parts = [part a]
  calls : ∀ a v, World.calls (p a) v = v.callsOf token (part a)
  run : ∀ a b v u, World.run (p a) v = (.finished (.ok b), u) →
    ∃ b', v.run ((part a).procedure token) = (.finished (.ok b'), u)

/-- A batch that hangs is cut off at one of its parts. -/
theorem cutOff_each {p : α → Procedure (Except Failure β)} {part : α → Operation}
    (hparts : DoesParts token p part)
    {items : List α} {m : Moment} (hm : m ∈ w.calls (Procedure.each p items)) (hhangs : m.Hangs) :
    ∃ before a later u, CutOff token w (items.map part) (w.calls (Procedure.each p items)) m
      before (part a) later u := by
  induction items generalizing w with
  | nil => cases hm
  | cons a rest ih =>
    rw [World.calls_each_cons] at hm ⊢
    by_cases hfirst : m ∈ w.calls (p a)
    · have hhung := (World.run_of_hangs hfirst hhangs).1
      rw [hparts.calls] at hfirst
      have hcut := cutOff_single (hparts.single a) hfirst hhangs
      refine ⟨[], a, rest.map part, w, rfl, hcut.carriedOut, ?_, hcut.last, hcut.left⟩
      rw [hhung, hparts.calls]
      exact List.append_nil _
    · replace hm := (List.mem_append.mp hm).resolve_left hfirst
      split at hm
      · rename_i b v hok
        obtain ⟨before, a', later, u, hcut⟩ := ih hm
        obtain ⟨b', hrun'⟩ := hparts.run a b w v hok
        have heffect := ((part a).leaves_clean token w (hparts.single a)).succeeded b' v hrun'
        have hperform : w.perform token (part a) = v := congrArg Prod.snd hrun'
        refine ⟨part a :: before, a', later, u, ?_, .cons hrun' heffect hcut.carriedOut, ?_,
          hcut.last, hcut.left⟩
        · rw [List.map_cons, hcut.parts]
          rfl
        · rw [World.callsInTurn, hperform, List.append_assoc, ← hcut.calls, ← hparts.calls]
      · cases hm

/-- A batch is cut off at the same part if its results are forgotten. -/
theorem cutOff_forget {p : α → Procedure (Except Failure β)} {part : α → Operation}
    (hparts : DoesParts token p part)
    {items : List α} {m : Moment} (hm : m ∈ w.calls (Desk.forget (Procedure.each p items)))
    (hhangs : m.Hangs) :
    ∃ before a later u, CutOff token w (items.map part)
      (w.calls (Desk.forget (Procedure.each p items))) m before (part a) later u := by
  have hsame : w.calls (Desk.forget (Procedure.each p items)) = w.calls (Procedure.each p items) :=
    World.calls_answering _ (fun _ => ()) w
  rw [hsame] at hm ⊢
  exact cutOff_each hparts hm hhangs

/-- An operation that hangs is cut off at one of its parts. -/
theorem cutOff_of_hangs {op : Operation} {m : Moment} (hm : m ∈ w.callsOf token op)
    (hhangs : m.Hangs) :
    ∃ before part later u, CutOff token w op.parts (w.callsOf token op) m before part later u := by
  have hset : DoesParts token (Desk.set token) .set :=
    ⟨fun _ => rfl, fun _ _ => rfl, fun _ b _ _ h => ⟨b, h⟩⟩
  have huse : DoesParts token (Desk.use token) .use :=
    ⟨fun _ => rfl, fun _ _ => rfl, fun _ b _ _ h => ⟨b, h⟩⟩
  have hdelete : DoesParts token (Desk.delete token) .delete :=
    ⟨fun _ => rfl, fun _ _ => rfl, fun _ b _ _ h => ⟨b, h⟩⟩
  have hhide : DoesParts token (Desk.hide token) .hide :=
    ⟨fun _ => rfl, fun _ _ => rfl, fun _ b _ _ h => ⟨b, h⟩⟩
  have hshow : DoesParts token (Desk.show token) .show :=
    ⟨fun _ => rfl, fun _ _ => rfl, fun _ b _ _ h => ⟨b, h⟩⟩
  cases op with
  | list | read | set | use | delete | hide | «show» =>
    exact ⟨[], _, [], w, cutOff_single rfl hm hhangs⟩
  | setMany payloads =>
    obtain ⟨before, payload, hcut⟩ := cutOff_each hset hm hhangs
    exact ⟨before, .set payload, hcut⟩
  | useMany ids =>
    obtain ⟨before, id, hcut⟩ := cutOff_forget huse hm hhangs
    exact ⟨before, .use id, hcut⟩
  | deleteMany ids =>
    obtain ⟨before, id, hcut⟩ := cutOff_forget hdelete hm hhangs
    exact ⟨before, .delete id, hcut⟩
  | hideMany ids =>
    obtain ⟨before, id, hcut⟩ := cutOff_forget hhide hm hhangs
    exact ⟨before, .hide id, hcut⟩
  | showMany ids =>
    obtain ⟨before, id, hcut⟩ := cutOff_forget hshow hm hhangs
    exact ⟨before, .show id, hcut⟩

end WaitingRoom
