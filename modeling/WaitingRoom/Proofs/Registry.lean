import Mathlib.Data.List.Induction
import Mathlib.Data.List.Perm.Basic
import WaitingRoom.Proofs.Subscriptions
import WaitingRoom.Registry

/-!
# What a registry holds

A registry is a map: whatever it has been asked, each connection stands for what it subscribed
to last, unless it has unsubscribed since, and no connection stands for two things. An event
starts one delivery for each connection that stands for its user. Deliveries that have been
started are made once or are under way still, and what becomes of one makes no difference to any
other.
-/

namespace WaitingRoom

variable {ρ : Type}

namespace RegistryStep

/-- The connection that a step subscribes or unsubscribes. -/
def connection? : RegistryStep ρ → Option String
  | subscribe connection _ _ | unsubscribe connection => some connection
  | trigger .. | deliver .. => none

/-- A step regardless of whether a delivery is taken. -/
def regardless : RegistryStep ρ → RegistryStep ρ
  | deliver position _ => deliver position true
  | s => s

end RegistryStep

namespace Registry

variable {r r' : Registry ρ} {past : List (RegistryStep ρ)} {s : RegistryStep ρ}
  {e : Subscription ρ}

/-- A row of steps up to its last. -/
@[simp] theorem run_append_singleton (r : Registry ρ) (past : List (RegistryStep ρ))
    (s : RegistryStep ρ) : r.run (past ++ [s]) = (r.run past).step s := by
  simp [run]

/-! ## The map -/

/-- Whether a subscription stands after a row of steps: it was made, and its connection has
neither subscribed nor unsubscribed since. -/
def Stands (steps : List (RegistryStep ρ)) (e : Subscription ρ) : Prop :=
  ∃ before after, steps = before ++ .subscribe e.connection e.user e.reach :: after ∧
    ∀ s ∈ after, s.connection? ≠ some e.connection

/-- Nothing stands before the first step. -/
theorem not_stands_nil : ¬ Stands [] e := by
  rintro ⟨before, after, hpast, -⟩
  simp at hpast

/-- A subscription stands after one more step if that step has made it, or if it stood before
and the step is none of its connection's. -/
theorem stands_append_singleton :
    Stands (past ++ [s]) e ↔
      s = .subscribe e.connection e.user e.reach ∨
        Stands past e ∧ s.connection? ≠ some e.connection := by
  constructor
  · rintro ⟨before, after, hpast, hafter⟩
    rcases after.eq_nil_or_concat with rfl | ⟨after, last, rfl⟩
    · exact .inl (List.singleton_inj.mp (List.append_inj' hpast rfl).2)
    · rw [List.concat_eq_append] at hpast hafter
      rw [← List.cons_append, ← List.append_assoc] at hpast
      obtain ⟨rfl, hlast⟩ := List.append_inj' hpast rfl
      obtain rfl := List.singleton_inj.mp hlast
      refine .inr ⟨⟨before, after, rfl, fun s' hs' => ?_⟩, hafter s ?_⟩
      · exact hafter s' (List.mem_append_left _ hs')
      · exact List.mem_append_right _ (List.mem_singleton_self s)
  · rintro (rfl | ⟨⟨before, after, rfl, hafter⟩, hs⟩)
    · exact ⟨past, [], rfl, fun _ hs => nomatch hs⟩
    · refine ⟨before, after ++ [s], by simp, fun s' hs' => ?_⟩
      rcases List.mem_append.mp hs' with hs' | hs'
      · exact hafter s' hs'
      · rw [List.mem_singleton.mp hs']
        exact hs

/-- What is subscribed after a step is what the step has made, and what was subscribed before if
the step is none of its connection's. -/
theorem mem_entries_step :
    e ∈ (r.step s).subscriptions.entries ↔
      s = .subscribe e.connection e.user e.reach ∨
        e ∈ r.subscriptions.entries ∧ s.connection? ≠ some e.connection := by
  cases s with
  | subscribe connection user reach =>
    have hmade : e = ⟨connection, user, reach⟩ ↔ RegistryStep.subscribe connection user reach =
        .subscribe e.connection e.user e.reach := by
      obtain ⟨c, u, a⟩ := e
      simp [eq_comm]
    simp [step, RegistryStep.connection?, hmade, or_comm, eq_comm]
  | unsubscribe connection => simp [step, RegistryStep.connection?, eq_comm]
  | trigger user event => simp [step, RegistryStep.connection?]
  | deliver position taken =>
    rw [step]
    split <;> simp [RegistryStep.connection?]

/-- What is subscribed in the end is what stands after the steps. -/
theorem mem_entries_run :
    e ∈ (({} : Registry ρ).run past).subscriptions.entries ↔ Stands past e := by
  induction past using List.reverseRecOn with
  | nil => exact iff_of_false List.not_mem_nil not_stands_nil
  | append_singleton past s ih =>
    rw [run_append_singleton, mem_entries_step, stands_append_singleton, ih]

/-- No step leaves a connection with two subscriptions. -/
theorem distinct_step (h : r.subscriptions.Distinct) (s : RegistryStep ρ) :
    (r.step s).subscriptions.Distinct := by
  cases s with
  | subscribe connection user reach => exact h.subscribe connection user reach
  | unsubscribe connection => exact h.unsubscribe connection
  | trigger user event => exact h
  | deliver position taken =>
    rw [step]
    split <;> exact h

/-- No connection ever has two subscriptions. -/
theorem distinct_run (past : List (RegistryStep ρ)) :
    (({} : Registry ρ).run past).subscriptions.Distinct := by
  induction past using List.reverseRecOn with
  | nil => exact Subscriptions.Distinct.empty
  | append_singleton past s ih =>
    rw [run_append_singleton]
    exact distinct_step ih s

/-! ## Answers -/

/-- An unsubscription is answered by whether the connection had a subscription. -/
theorem answer_unsubscribe (r : Registry ρ) (connection : String) :
    ∃ any, r.answer (.unsubscribe connection) = .dropped any ∧
      (any = true ↔ ∃ e ∈ r.subscriptions.entries, e.connection = connection) := by
  refine ⟨_, rfl, ?_⟩
  have hle := List.length_filter_le (fun e : Subscription ρ => e.connection != connection)
    r.subscriptions.entries
  have hlt := List.length_filter_lt_length_iff_exists
    (p := fun e : Subscription ρ => e.connection != connection) (l := r.subscriptions.entries)
  simp only [bne_iff_ne, ne_eq, Decidable.not_not] at hlt
  rw [bne_iff_ne, ← hlt]
  exact ⟨Nat.lt_of_le_of_ne hle, Nat.ne_of_lt⟩

/-- The deliveries that an event starts go to different connections if no connection has two
subscriptions. -/
theorem nodup_trigger (h : r.subscriptions.Distinct) (user : String) (event : Event) :
    ((r.subscriptions.trigger user event).map fun d => d.target.connection).Nodup := by
  rw [Subscriptions.trigger, List.map_map]
  exact h.sublist (List.filter_sublist.map Subscription.connection)

/-! ## Deliveries -/

/-- The deliveries that a step starts. -/
def started (r : Registry ρ) : RegistryStep ρ → List (Delivery ρ)
  | .trigger user event => r.subscriptions.trigger user event
  | .subscribe .. | .unsubscribe _ | .deliver .. => []

/-- The deliveries that are started along a row of steps. -/
def startedAlong (r : Registry ρ) : List (RegistryStep ρ) → List (Delivery ρ)
  | [] => []
  | s :: rest => r.started s ++ (r.step s).startedAlong rest

/-- A step makes at most a delivery that was under way, and loses none. -/
theorem made_append_underway_step_perm (r : Registry ρ) (s : RegistryStep ρ) :
    ((r.step s).receipts.map Receipt.delivery ++ (r.step s).underway).Perm
      (r.receipts.map Receipt.delivery ++ r.underway ++ r.started s) := by
  cases s with
  | subscribe | unsubscribe => exact .of_eq (List.append_nil _).symm
  | trigger user event => exact .of_eq (List.append_assoc ..).symm
  | deliver position taken =>
    rw [started, List.append_nil, step]
    split
    · rename_i d hd
      obtain ⟨hlt, rfl⟩ := List.getElem?_eq_some_iff.mp hd
      simp only [List.map_append, List.map_cons, List.map_nil, List.append_assoc,
        List.singleton_append]
      exact .append_left _ (List.getElem_cons_eraseIdx_perm hlt)
    · exact .refl _

/-- Deliveries are made once or are under way still. -/
theorem made_append_underway_run_perm (r : Registry ρ) (steps : List (RegistryStep ρ)) :
    ((r.run steps).receipts.map Receipt.delivery ++ (r.run steps).underway).Perm
      (r.receipts.map Receipt.delivery ++ r.underway ++ r.startedAlong steps) := by
  induction steps generalizing r with
  | nil => exact .of_eq (List.append_nil _).symm
  | cons s rest ih =>
    refine (ih (r.step s)).trans ?_
    rw [startedAlong, ← List.append_assoc]
    exact (r.made_append_underway_step_perm s).append_right _

/-- Whether two registries differ at most in which deliveries were taken. -/
structure SameButTaken (r r' : Registry ρ) : Prop where
  subscriptions : r'.subscriptions = r.subscriptions
  underway : r'.underway = r.underway
  made : r'.receipts.map Receipt.delivery = r.receipts.map Receipt.delivery

/-- It makes no difference to a step which deliveries were taken before, nor whether the one is
that it makes. -/
theorem SameButTaken.step (h : SameButTaken r r') {s s' : RegistryStep ρ}
    (hs : s'.regardless = s.regardless) :
    SameButTaken (r.step s) (r'.step s') ∧ r'.answer s' = r.answer s := by
  obtain ⟨hsubscriptions, hunderway, hmade⟩ := h
  cases s with
  | deliver position taken =>
    cases s' with
    | deliver position' taken' =>
      obtain rfl : position' = position := (RegistryStep.deliver.inj hs).1
      refine ⟨?_, rfl⟩
      simp only [Registry.step, hunderway]
      split
      · exact ⟨hsubscriptions, rfl, by simp [hmade]⟩
      · exact ⟨hsubscriptions, hunderway, hmade⟩
    | subscribe | unsubscribe | trigger => cases hs
  | subscribe connection user reach =>
    cases s' <;> cases hs
    exact ⟨⟨by simp [Registry.step, hsubscriptions], hunderway, hmade⟩, rfl⟩
  | unsubscribe connection =>
    cases s' <;> cases hs
    exact ⟨⟨by simp [Registry.step, hsubscriptions], hunderway, hmade⟩,
      by simp [answer, hsubscriptions]⟩
  | trigger user event =>
    cases s' <;> cases hs
    exact ⟨⟨hsubscriptions, by simp [Registry.step, hsubscriptions, hunderway], hmade⟩,
      by simp [answer, hsubscriptions]⟩

/-- It makes no difference to a row of steps which deliveries are taken. -/
theorem SameButTaken.run (h : SameButTaken r r') {steps steps' : List (RegistryStep ρ)}
    (hsteps : steps'.map RegistryStep.regardless = steps.map RegistryStep.regardless) :
    SameButTaken (r.run steps) (r'.run steps') ∧ r'.answers steps' = r.answers steps := by
  induction steps generalizing r r' steps' with
  | nil =>
    obtain rfl := List.map_eq_nil_iff.mp hsteps
    exact ⟨h, rfl⟩
  | cons s rest ih =>
    obtain ⟨s', rest', rfl, hs, hrest⟩ := List.map_eq_cons_iff.mp hsteps
    obtain ⟨hstep, hanswer⟩ := h.step hs
    obtain ⟨hrun, hanswers⟩ := ih hstep hrest
    exact ⟨hrun, List.cons_eq_cons.mpr ⟨hanswer, hanswers⟩⟩

/-- **A registry is a map, and events fan out exactly.** After any row of steps no connection has
two subscriptions, and what is subscribed is what each connection subscribed to last, unless it
has unsubscribed since. An unsubscription is answered by whether the connection had a
subscription. An event starts one delivery of it for each connection that is subscribed to the
user's devices, and for no other; their number is answered, and nothing else changes. Each
delivery that was started has been made once or is under way still. Whether a delivery is taken
makes no difference to what is subscribed, to what is answered, nor to which other deliveries are
made. -/
theorem registry_is_a_map (steps : List (RegistryStep ρ)) :
    let r := ({} : Registry ρ).run steps
    r.subscriptions.Distinct ∧
    (∀ e, e ∈ r.subscriptions.entries ↔ Stands steps e) ∧
    (∀ connection, ∃ any, r.answer (.unsubscribe connection) = .dropped any ∧
      (any = true ↔ ∃ e, Stands steps e ∧ e.connection = connection)) ∧
    (∀ user event, ∃ started,
      r.step (.trigger user event) = { r with underway := r.underway ++ started } ∧
      r.answer (.trigger user event) = .started started.length ∧
      (started.map fun d => d.target.connection).Nodup ∧
      ∀ d, d ∈ started ↔ Stands steps d.target ∧ d.target.user = user ∧ d.event = event) ∧
    (r.receipts.map Receipt.delivery ++ r.underway).Perm (({} : Registry ρ).startedAlong steps) ∧
    ∀ others : List (RegistryStep ρ),
      others.map RegistryStep.regardless = steps.map RegistryStep.regardless →
      SameButTaken r (({} : Registry ρ).run others) ∧
        ({} : Registry ρ).answers others = ({} : Registry ρ).answers steps := by
  intro r
  have hdistinct : r.subscriptions.Distinct := distinct_run steps
  have hmem (e : Subscription ρ) : e ∈ r.subscriptions.entries ↔ Stands steps e := mem_entries_run
  refine ⟨hdistinct, hmem, fun connection => ?_, fun user event => ?_, ?_, fun others hothers => ?_⟩
  · obtain ⟨any, hanswer, hany⟩ := r.answer_unsubscribe connection
    refine ⟨any, hanswer, hany.trans ?_⟩
    simp only [hmem]
  · refine ⟨r.subscriptions.trigger user event, rfl, rfl, nodup_trigger hdistinct user event, ?_⟩
    intro d
    rw [Subscriptions.mem_trigger, hmem]
  · exact made_append_underway_run_perm {} steps
  · exact SameButTaken.run ⟨rfl, rfl, rfl⟩ hothers

/-- A connection turns from one user to another, an event of the latter's follows, and the first of
its two deliveries is made, taken or not. -/
def changeOfUser (taken : Bool) : List (RegistryStep Nat) :=
  [.subscribe "c1" "alice" 1, .subscribe "c2" "bob" 2, .subscribe "c1" "bob" 3,
    .trigger "bob" ⟨.set, "d1"⟩, .deliver 0 taken]

/-- Each connection stands for what it turned to last and is sent the event once, and it makes no
difference whether the first delivery is taken. -/
theorem both_hear_of_bob :
    Stands (changeOfUser true) ⟨"c1", "bob", 3⟩ ∧ ¬ Stands (changeOfUser true) ⟨"c1", "alice", 1⟩ ∧
    (({} : Registry Nat).startedAlong (changeOfUser true)).map (·.target.connection) =
      ["c2", "c1"] ∧
    (changeOfUser false).map RegistryStep.regardless =
      (changeOfUser true).map RegistryStep.regardless ∧
    SameButTaken (({} : Registry Nat).run (changeOfUser true))
      (({} : Registry Nat).run (changeOfUser false)) := by
  obtain ⟨-, hmem, -, -, -, hsame⟩ := registry_is_a_map (changeOfUser true)
  have hregardless : (changeOfUser false).map RegistryStep.regardless =
      (changeOfUser true).map RegistryStep.regardless := rfl
  refine ⟨(hmem _).mp (by decide), fun hstands => ?_, by decide, hregardless,
    (hsame _ hregardless).1⟩
  exact absurd ((hmem _).mpr hstands) (by decide)

end Registry

end WaitingRoom
