import WaitingRoom.Proofs.Desk.Occasions

/-!
# Requests that take turns

Many requests are under way at a desk at once. Each waits at some call of its procedure,
and whichever is served next makes that one call; removals that have fallen due are
carried out in between, and so are movements of the clock. A row of turns is one way in
which all this may happen. What was done is kept as a row of acts, each with the world in
which it was done.
-/

namespace WaitingRoom

variable {α : Type}

/-- The call a procedure makes next, unless it is done. -/
def Procedure.nextCall? : Procedure α → Option Call
  | .done _ => none
  | .now _ => some .now
  | .read id _ => some (.read id)
  | .write d _ => some (.write d)
  | .remove id _ => some (.remove id)
  | .list user o _ => some (.list user o)
  | .adopt t d _ => some (.adopt t d)
  | .removeLater id _ => some (.removeLater id)
  | .notify user e _ => some (.notify user e)

/-- What is left of a procedure after its next call; nothing if that call hangs. -/
def World.rest (w : World) : Procedure α → Option (Procedure α)
  | .done a => some (.done a)
  | .now next => some (next w.clock)
  | .read id next => (w.readCall id).1.map next
  | .write d next => (w.writeCall d).1.map next
  | .remove id next => (w.removeCall id).1.map next
  | .list user o next => (w.listCall user o).1.map next
  | .adopt t d next => (w.adoptCall t d).1.map next
  | .removeLater _ next => some next
  | .notify _ _ next => some next

/-- To run a procedure is to make its next call and to run what is left. -/
theorem World.run_eq_rest (w : World) {p : Procedure α} {c : Call} (hnext : p.nextCall? = some c) :
    w.run p = match w.rest p with
      | some q => (w.after c).run q
      | none => (.hung, w.after c) := by
  cases p with
  | done => cases hnext
  | now | removeLater | notify =>
    cases hnext
    rfl
  | read id next =>
    cases hnext
    rw [run, rest, after]
    rcases w.readCall id with ⟨_ | r, v⟩ <;> rfl
  | write d next =>
    cases hnext
    rw [run, rest, after]
    rcases w.writeCall d with ⟨_ | r, v⟩ <;> rfl
  | remove id next =>
    cases hnext
    rw [run, rest, after]
    rcases w.removeCall id with ⟨_ | r, v⟩ <;> rfl
  | list user o next =>
    cases hnext
    rw [run, rest, after]
    rcases w.listCall user o with ⟨_ | r, v⟩ <;> rfl
  | adopt t d next =>
    cases hnext
    rw [run, rest, after]
    rcases w.adoptCall t d with ⟨_ | r, v⟩ <;> rfl

/-- What holds of a procedure whenever it holds of all that may be left of it after its next
call holds of every procedure. -/
theorem Procedure.rest_induction {P : Procedure α → Prop}
    (step : ∀ p, (∀ (w : World) c q, p.nextCall? = some c → w.rest p = some q → P q) → P p)
    (p : Procedure α) : P p := by
  induction p with
  | done a =>
    apply step
    intro w c q hnext _
    cases hnext
  | now next ih =>
    apply step
    intro w c q _ hrest
    cases hrest
    exact ih _
  | removeLater _ next ih | notify _ _ next ih =>
    apply step
    intro w c q _ hrest
    cases hrest
    exact ih
  | read _ next ih | write _ next ih | remove _ next ih | list _ _ next ih | adopt _ _ next ih =>
    apply step
    intro w c q _ hrest
    obtain ⟨r, _, rfl⟩ := Option.map_eq_some_iff.mp hrest
    exact ih r

/-- What a user asks of the desk, and how much of it is left to do: nothing more if one of
its calls hangs. -/
structure Request where
  token : Token
  operation : Operation
  rest : Option (Procedure (Except Failure operation.Result))

namespace Request

/-- A request that is yet to be served. -/
def fresh (token : Token) (op : Operation) : Request := ⟨token, op, some (op.procedure token)⟩

/-- The call a request makes next, if it makes one. -/
def nextCall? (r : Request) : Option Call := r.rest.bind Procedure.nextCall?

/-- A request after its next call. -/
def proceed (r : Request) (w : World) : Request := { r with rest := r.rest.bind w.rest }

/-- What a request was answered, once it is done. -/
def answer? (r : Request) : Option (Except Failure r.operation.Result) :=
  match r.rest with
  | some (.done a) => some a
  | _ => none

end Request

/-- Who makes a call: the request at a position, or a removal that was put off. -/
inductive Doer
  | request (position : Nat) (token : Token) (operation : Operation)
  | removal (r : Removal)

/-- The user on whose behalf a request makes a call. -/
def Doer.user? : Doer → Option String
  | .request _ token _ => some token.userId
  | .removal _ => none

/-- A call that was made, by whom, and in which world. -/
structure Act extends Moment where
  doer : Doer

/-- A desk with many requests under way, and what was done there so far. -/
structure Bustle where
  world : World
  requests : List Request
  acts : List Act := []

/-- What happens next: the request at a position makes its next call, the removal at a
position is carried out if it is due, time passes, or the clock is set. -/
inductive Turn
  | proceed (position : Nat)
  | carryOut (position : Nat)
  | pass (millis : Nat)
  | setClock (now : Time.Instant)

namespace Bustle

/-- A desk at which nothing of what is asked has been done. -/
def opened (w : World) (asked : List (Token × Operation)) : Bustle :=
  { world := w, requests := asked.map fun (token, op) => .fresh token op }

/-- A removal is carried out. -/
def remove (s : Bustle) (position : Nat) (r : Removal) : Bustle :=
  let w := { s.world with removals := s.world.removals.eraseIdx position }
  { s with
    world := w.after (.remove r.localId)
    acts := s.acts ++ [⟨⟨w, .remove r.localId⟩, .removal r⟩] }

/-- A request makes its next call. -/
def call (s : Bustle) (position : Nat) (r : Request) (c : Call) : Bustle where
  world := s.world.after c
  requests := s.requests.set position (r.proceed s.world)
  acts := s.acts ++ [⟨⟨s.world, c⟩, .request position r.token r.operation⟩]

/-- The desk after a turn. A turn of a request that is done or hangs changes nothing. -/
def take (s : Bustle) : Turn → Bustle
  | .proceed position =>
    match s.requests[position]? with
    | none => s
    | some r =>
      match r.nextCall? with
      | none => s
      | some c => s.call position r c
  | .carryOut position =>
    match s.world.removals[position]? with
    | none => s
    | some r => if r.due ≤ s.world.elapsed then s.remove position r else s
  | .pass millis => { s with world := { s.world with elapsed := s.world.elapsed + millis } }
  | .setClock now => { s with world := { s.world with clock := now } }

/-- The desk after a row of turns. -/
def run (s : Bustle) (turns : List Turn) : Bustle := turns.foldl take s

theorem run_cons (s : Bustle) (t : Turn) (turns : List Turn) :
    s.run (t :: turns) = (s.take t).run turns := rfl

theorem run_singleton (s : Bustle) (t : Turn) : s.run [t] = s.take t := rfl

/-- The answers given so far to the requests that were successful, by position. -/
def succeeded (s : Bustle) : List Bool :=
  s.requests.map fun r => match r.answer? with
    | some (.ok _) => true
    | _ => false

/-- Whether nothing that concerns records has happened between two states of a desk. -/
structure Idle (s s' : Bustle) : Prop where
  requests : s'.requests = s.requests
  acts : s'.acts = s.acts
  store : s'.world.store = s.world.store
  removals : s'.world.removals = s.world.removals

/-- All that a turn can be: idle, the next call of a request, or a removal. -/
theorem take_cases (s : Bustle) (t : Turn) :
    s.Idle (s.take t) ∨
    (∃ position r c, s.requests[position]? = some r ∧ r.nextCall? = some c ∧
      s.take t = s.call position r c) ∨
    (∃ position r, s.world.removals[position]? = some r ∧ r.due ≤ s.world.elapsed ∧
      s.take t = s.remove position r) := by
  have hidle : s.Idle s := ⟨rfl, rfl, rfl, rfl⟩
  cases t with
  | proceed position =>
    rw [take]
    split
    · exact .inl hidle
    · rename_i r hr
      split
      · exact .inl hidle
      · rename_i c hc
        exact .inr (.inl ⟨position, r, c, hr, hc, rfl⟩)
  | carryOut position =>
    rw [take]
    split
    · exact .inl hidle
    · rename_i r hr
      split
      · rename_i hdue
        exact .inr (.inr ⟨position, r, hr, hdue, rfl⟩)
      · exact .inl hidle
  | pass millis => exact .inl ⟨rfl, rfl, rfl, rfl⟩
  | setClock now => exact .inl ⟨rfl, rfl, rfl, rfl⟩

/-- What holds when a desk opens and is kept by every turn holds after every row of turns. -/
theorem run_keeps {P : Bustle → Prop} {s : Bustle} (hopened : P s)
    (htake : ∀ s t, P s → P (s.take t)) (turns : List Turn) : P (s.run turns) := by
  induction turns generalizing s with
  | nil => exact hopened
  | cons t turns ih => exact ih (htake s t hopened)

/-- A request that is alone at a desk and is given enough turns leaves the world as it does
where requests are served one at a time. -/
theorem run_alone (w : World) (token : Token) (op : Operation) :
    ∃ n, ((opened w [(token, op)]).run (List.replicate n (.proceed 0))).world =
      w.perform token op := by
  have halone : ∀ (p : Procedure (Except Failure op.Result)) (w : World) (acts : List Act),
      ∃ n, ((⟨w, [⟨token, op, some p⟩], acts⟩ : Bustle).run
        (List.replicate n (.proceed 0))).world = (w.run p).2 := by
    intro p
    induction p using Procedure.rest_induction with
    | step p ih =>
      intro w acts
      cases hnext : p.nextCall? with
      | none =>
        cases p with
        | done a => exact ⟨0, rfl⟩
        | _ => cases hnext
      | some c =>
        have htake : (⟨w, [⟨token, op, some p⟩], acts⟩ : Bustle).take (.proceed 0) =
            ⟨w.after c, [⟨token, op, w.rest p⟩], acts ++ [⟨⟨w, c⟩, .request 0 token op⟩]⟩ := by
          simp [take, call, Request.nextCall?, Request.proceed, hnext]
        rw [w.run_eq_rest hnext]
        cases hrest : w.rest p with
        | none => exact ⟨1, by rw [List.replicate_one, run_singleton, htake]⟩
        | some q =>
          obtain ⟨n, hn⟩ := ih w c q hnext hrest (w.after c) _
          refine ⟨n + 1, ?_⟩
          rw [List.replicate_succ, run_cons, htake, hrest]
          exact hn
  exact halone (op.procedure token) w []

end Bustle

end WaitingRoom
