import WaitingRoom.Proofs.Desk.Effects

/-!
# The courses of operations

An operation on one record is a course of steps: calls of the store and the device manager, and
checks of what was asked and of what was found. The course is known beforehand from what the store
holds and from how the next call of each kind fares. An operation goes its course up to the first
step that fails, makes the calls on the way and no others, and answers with the failure of that
step.
-/

namespace WaitingRoom

variable {α β : Type}

/-! ## Steps -/

/-- A step of an operation: the call that is made, unless the step is a check, and the failure
that it ends in, if it does. -/
structure Step where
  call? : Option Call
  failure? : Option Failure

/-- The step that makes a call. -/
def Step.calling (c : Call) (failure? : Option Failure := none) : Step := ⟨some c, failure?⟩

/-- The step that checks something. -/
def Step.checking (failure? : Option Failure) : Step := ⟨none, failure?⟩

/-- Steps that are taken in their order up to the first that fails. -/
abbrev Course := List Step

namespace Course

/-- The failure of the first step that fails. -/
def failure? (course : Course) : Option Failure := course.findSome? Step.failure?

/-- The calls that are made up to and at the first step that fails. -/
def calls : Course → List Call
  | [] => []
  | step :: rest => step.call?.toList ++ if step.failure?.isSome then [] else calls rest

/-- A course whose first step does not fail. -/
theorem failure?_cons_of_none {step : Step} {rest : Course} (hstep : step.failure? = none) :
    failure? (step :: rest) = failure? rest := by
  simp [failure?, hstep]

/-- A course that goes on after another. -/
theorem calls_append (first second : Course) :
    calls (first ++ second) =
      first.calls ++ if first.failure?.isSome then [] else second.calls := by
  induction first with
  | nil => rfl
  | cons step rest ih =>
    cases hstep : step.failure? with
    | some f => simp [calls, failure?, hstep]
    | none => simp [calls, hstep, failure?_cons_of_none hstep, ih]

/-- If no step fails all calls of a course are made. -/
theorem calls_of_failure?_eq_none {course : Course} (hnone : course.failure? = none) :
    course.calls = course.filterMap Step.call? := by
  induction course with
  | nil => rfl
  | cons step rest ih =>
    cases hstep : step.failure? with
    | some f => simp [failure?, hstep] at hnone
    | none =>
      rw [failure?_cons_of_none hstep] at hnone
      rw [calls, hstep, ih hnone]
      cases hcall : step.call? <;> simp [hcall]

end Course

/-! ## How the next calls fare -/

/-- The failure that the next call of a kind ends in, if it is to fail. -/
def StoreService.fault? (s : StoreService) (call : StoreCall) : Option Failure :=
  if s.next call = .failed then some diskFull else none

/-- The failure that the device manager refuses the next device with, if it does. -/
def World.refusal? (w : World) : Option Failure :=
  match w.manager w.asked with
  | .declined f => some f
  | _ => none

/-- The answer to a call that is to fail, or else the answer that it has if it is served. -/
def answerOr (failure? : Option Failure) (served : Except Failure α) : Except Failure α :=
  match failure? with
  | some f => .error f
  | none => served

namespace StoreService

variable {s : StoreService} {call other : StoreCall} {served : Except Failure α × Store}

/-- A call of the store fails in one way only. -/
theorem eq_diskFull_of_fault? {f : Failure} (hfault : s.fault? call = some f) : f = diskFull := by
  unfold fault? at hfault
  split at hfault
  · exact (Option.some.inj hfault).symm
  · cases hfault

/-- A call that is answered is answered as the store has it, unless it is to fail. -/
theorem answer_eq_some {r : Except Failure α} (hanswer : (s.answer call served).1 = some r) :
    r = answerOr (s.fault? call) served.1 := by
  unfold answer at hanswer
  unfold fault?
  cases hnext : s.next call <;> rw [hnext] at hanswer <;> cases hanswer <;> rfl

/-- How a call of another kind fares is not changed by a call. -/
theorem fault?_answer (hne : other ≠ call) :
    (s.answer call served).2.fault? other = s.fault? other := by
  have hnext : (s.answer call served).2.next other = s.next other := by
    have hmade : (s.answer call served).2.made = s.made.bump call := by
      unfold answer
      cases s.next call <;> rfl
    rw [next, answer_forecast, hmade, CallCounts.of_bump, if_neg hne]
    rfl
  rw [fault?, hnext, fault?]

end StoreService

namespace World

/-- How calls other than reads fare is not changed by a read. -/
theorem fault?_after_read (w : World) (id : String) {other : StoreCall} (hne : other ≠ .read) :
    (w.after (.read id)).service.fault? other = w.service.fault? other :=
  StoreService.fault?_answer hne

/-- The device manager does not change how calls of the store fare. -/
theorem service_after_adopt (w : World) (t : Token) (d : Device) :
    (w.after (.adopt t d)).service = w.service := by
  simp only [after, adoptCall]
  split <;> rfl

/-- A removal that is put off does not change how calls of the store fare. -/
theorem service_removeLater (w : World) (id : String) : (w.removeLater id).service = w.service := by
  unfold removeLater
  split <;> rfl

/-- The device manager takes over what it does not refuse, if it answers. -/
theorem adoptCall_eq_some {w : World} {t : Token} {d : Device} {r : Except Failure Unit}
    (hanswer : (w.adoptCall t d).1 = some r) :
    r = answerOr w.refusal? (.ok ()) := by
  unfold adoptCall at hanswer
  unfold refusal?
  split at hanswer <;> cases hanswer <;> simp [answerOr, *]

/-! ## Going a course -/

/-- A procedure that comes to its end after its next call does so with what is left of it. -/
theorem finished_of_nextCall {w v : World} {p : Procedure α} {c : Call} {a : α}
    (hnext : p.nextCall? = some c) (hrun : w.run p = (.finished a, v)) :
    ∃ q, w.rest p = some q ∧ (w.after c).run q = (.finished a, v) ∧
      w.calls p = ⟨w, c⟩ :: (w.after c).calls q := by
  rw [w.run_eq_rest hnext] at hrun
  rw [calls_eq_rest hnext]
  cases hq : w.rest p with
  | none =>
    rw [hq] at hrun
    cases hrun
  | some q =>
    rw [hq] at hrun
    exact ⟨q, rfl, hrun, rfl⟩

/-- A run that comes to its end ends in the world after its last call. -/
theorem finished_after_last {w v : World} {p : Procedure α} {a : α} {m : Moment}
    (hrun : w.run p = (.finished a, v)) (hlast : (w.calls p).getLast? = some m) :
    v = m.world.after m.call := by
  induction p using Procedure.rest_induction generalizing w with
  | step p ih =>
    cases hnext : p.nextCall? with
    | none =>
      obtain ⟨b, rfl⟩ := Procedure.eq_done hnext
      cases hlast
    | some c =>
      obtain ⟨q, hq, hafter, hmade⟩ := finished_of_nextCall hnext hrun
      rw [hmade, List.getLast?_cons] at hlast
      cases hcalls : ((w.after c).calls q).getLast? with
      | some last =>
        rw [hcalls] at hlast
        exact ih w c q hnext hq hafter (hcalls.trans hlast)
      | none =>
        rw [hcalls] at hlast
        cases hlast
        -- this call is the last, so nothing is left but to be done
        have hnomore : (w.after c).calls q = [] := List.getLast?_eq_none_iff.mp hcalls
        cases hmore : q.nextCall? with
        | some other => simp [calls_eq_rest hmore] at hnomore
        | none =>
          obtain ⟨b, rfl⟩ := Procedure.eq_done hmore
          cases hafter
          rfl

/-- Whether a procedure that has ended has gone a course: it has made the calls that are made on
the course, it has failed just as the course does, and if it has failed something is the case of
the failure and of the world. -/
structure Gone (course : Course) (Left : Failure → World → Prop) (made : List Moment)
    (r : Except Failure α) (v : World) : Prop where
  calls : made.map Moment.call = course.calls
  succeeded : ∀ a, r = .ok a → course.failure? = none
  failed : ∀ f, r = .error f → course.failure? = some f ∧ Left f v

/-- Whether a procedure goes a course if it comes to its end. -/
def Goes (w : World) (p : Procedure (Except Failure α)) (course : Course)
    (Left : Failure → World → Prop) : Prop :=
  ∀ r v, w.run p = (.finished r, v) → Gone course Left (w.calls p) r v

namespace Goes

variable {w : World} {p : Procedure (Except Failure α)} {course : Course}
  {Left : Failure → World → Prop}

/-- A procedure that is done with success has no step to take. -/
theorem of_ok {a : α} : w.Goes (.done (.ok a)) [] Left := by
  rintro _ _ ⟨⟩
  exact ⟨rfl, fun _ _ => rfl, fun _ h => nomatch h⟩

/-- A procedure that is done with a failure has failed a check. -/
theorem of_error {f : Failure} (hleft : Left f w) :
    w.Goes (.done (.error f) : Procedure (Except Failure α)) (.checking (some f) :: course)
      Left := by
  rintro _ _ ⟨⟩
  refine ⟨rfl, fun _ h => (nomatch h), ?_⟩
  rintro _ ⟨⟩
  exact ⟨rfl, hleft⟩

/-- A check that does not fail. -/
theorem checked (h : w.Goes p course Left) : w.Goes p (.checking none :: course) Left := by
  intro r v hrun
  obtain ⟨hcalls, hsucceeded, hfailed⟩ := h r v hrun
  exact ⟨hcalls, hsucceeded, hfailed⟩

/-- A call that does not fail. -/
theorem called {c : Call} (hnext : p.nextCall? = some c)
    (hrest : ∀ q, w.rest p = some q → (w.after c).Goes q course Left) :
    w.Goes p (.calling c :: course) Left := by
  intro r v hrun
  obtain ⟨q, hq, hrun, hmade⟩ := finished_of_nextCall hnext hrun
  obtain ⟨hcalls, hsucceeded, hfailed⟩ := hrest q hq r v hrun
  refine ⟨?_, hsucceeded, hfailed⟩
  rw [hmade, List.map_cons, hcalls]
  rfl

/-- A call that fails, after which nothing is left of the procedure but the failure. -/
theorem stopped {c : Call} {f : Failure} (hnext : p.nextCall? = some c)
    (hrest : ∀ q, w.rest p = some q → q = .done (.error f)) (hleft : Left f (w.after c)) :
    w.Goes p (.calling c (some f) :: course) Left := by
  intro r v hrun
  obtain ⟨q, hq, hrun, hmade⟩ := finished_of_nextCall hnext hrun
  obtain rfl := hrest q hq
  cases hrun
  refine ⟨by rw [hmade]; rfl, fun _ h => (nomatch h), ?_⟩
  rintro _ ⟨⟩
  exact ⟨rfl, hleft⟩

/-- A call that may fail: if it does nothing is left of the procedure but the failure, and if it
does not the procedure goes on with what is served. -/
theorem answered {γ : Type} {c : Call} {failure? : Option Failure} (served : Except Failure γ)
    {answer? : Option (Except Failure γ)} {next : Except Failure γ → Procedure (Except Failure α)}
    (hnext : p.nextCall? = some c) (hrest : w.rest p = answer?.map next)
    (hanswer : ∀ r, answer? = some r → r = answerOr failure? served)
    (hends : ∀ f, failure? = some f → next (.error f) = .done (.error f))
    (hfailed : ∀ f, failure? = some f → Left f (w.after c))
    (hserved : failure? = none → answer? = some served →
      (w.after c).Goes (next served) course Left) :
    w.Goes p (.calling c failure? :: course) Left := by
  have hleft : ∀ q, w.rest p = some q →
      q = next (answerOr failure? served) ∧ answer? = some (answerOr failure? served) := by
    intro q hq
    rw [hrest] at hq
    obtain ⟨r, hr, rfl⟩ := Option.map_eq_some_iff.mp hq
    rw [← hanswer r hr]
    exact ⟨rfl, hr⟩
  cases failure? with
  | some f =>
    exact stopped hnext (fun q hq => (hleft q hq).1.trans (hends f rfl)) (hfailed f rfl)
  | none =>
    refine called hnext fun q hq => ?_
    obtain ⟨hq, hserves⟩ := hleft q hq
    rw [hq]
    exact hserved rfl hserves

/-- A procedure goes a course still where less is known of what it leaves when it fails. -/
theorem imp {Less : Failure → World → Prop} (h : w.Goes p course Left)
    (himp : ∀ f v, course.failure? = some f → Left f v → Less f v) : w.Goes p course Less := by
  intro r v hrun
  obtain ⟨hcalls, hsucceeded, hfailed⟩ := h r v hrun
  refine ⟨hcalls, hsucceeded, fun f hf => ?_⟩
  obtain ⟨hfailure, hleft⟩ := hfailed f hf
  exact ⟨hfailure, himp f v hfailure hleft⟩

/-- Two procedures of which the second follows the success of the first go one course after the
other. -/
theorem andThen {f : α → Procedure (Except Failure β)} {second : Course}
    (hfirst : w.Goes p course Left)
    (hsecond : ∀ a v, w.run p = (.finished (.ok a), v) → v.Goes (f a) second Left) :
    w.Goes (p.andThen f) (course ++ second) Left := by
  have happend : Course.failure? (course ++ second) = course.failure?.or second.failure? := by
    simp [Course.failure?, List.findSome?_append]
  intro r u hrun
  rw [run_andThen] at hrun
  rw [Procedure.andThen, calls_bind]
  split at hrun
  · rename_i a v hp
    obtain ⟨hcalls, hnone, -⟩ := hfirst _ v hp
    obtain ⟨hcalls', hsucceeded, hfailed⟩ := hsecond a v hp r u hrun
    rw [hnone a rfl, Option.none_or] at happend
    refine ⟨?_, by rwa [happend], by rwa [happend]⟩
    rw [hp, List.map_append, hcalls, hcalls', Course.calls_append, hnone a rfl]
    rfl
  · rename_i e v hp
    obtain ⟨hcalls, -, hfailed⟩ := hfirst _ v hp
    obtain ⟨hfailure, hleft⟩ := hfailed e rfl
    cases hrun
    constructor
    · rw [hp, List.map_append, hcalls, Course.calls_append, hfailure]
      rfl
    · intro a hok
      cases hok
    · rintro _ ⟨⟩
      exact ⟨by rw [happend, hfailure]; rfl, hleft⟩
  · cases hrun

end Goes

end World

end WaitingRoom
