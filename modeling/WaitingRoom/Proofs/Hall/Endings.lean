import WaitingRoom.Proofs.Hall.Staleness
import WaitingRoom.Proofs.Hall.Works

/-!
# When a session is over

A session that is to end drops its subscription when nothing but itself can make another
one for its connection, and it does not until it has stopped handling frames. So nothing
of it is left behind: once it has dropped its subscription for good there is none for the
connection ever again, and once it is over no ping is written. Why it ends and what other
parties do in the meantime makes no difference.
-/

namespace WaitingRoom

/-- Whether a session that stands here has dropped its subscription for good. -/
def Reading.isFinal : Reading → Bool
  | parting | done => true
  | _ => false

/-- A session that has dropped its subscription for good cannot be subscribed. -/
theorem Reading.not_canBeSubscribed {r : Reading} (hfinal : r.isFinal) :
    r.canBeSubscribed = false := by
  cases r with
  | parting => rfl
  | done => rfl
  | _ => cases hfinal

/-- Whether what has become of a session is no step back from what it was: it is of the
same connection, and closed if it was; what it has done for good is done; and it neither
waits for the end without having dropped its subscription, nor is over before its pinging
has stopped. -/
structure Session.AgesTo (s s' : Session) : Prop where
  connection : s'.connection = s.connection
  closed : s.closed = true → s'.closed = true
  final : s.reading.isFinal → s'.reading.isFinal
  stopped : s.pinging = .stopped → s'.pinging = .stopped
  parts : s'.reading = .parting → s.reading = .parting ∨ s.reading = .withdrawing
  finished : s'.reading = .done → s.reading = .done ∨ s.pinging = .stopped

namespace Session.AgesTo

variable {s s' : Session}

/-- What stays as it is makes no step back. -/
theorem refl (s : Session) : s.AgesTo s := ⟨rfl, id, id, id, .inl, .inl⟩

/-- A session whose reading stands as it did, and that is closed and has stopped pinging if
it was and had. -/
theorem of_reading (hconnection : s'.connection = s.connection) (hreading : s'.reading = s.reading)
    (hclosed : s.closed = true → s'.closed = true)
    (hstopped : s.pinging = .stopped → s'.pinging = .stopped) : s.AgesTo s' := by
  refine ⟨hconnection, hclosed, fun hfinal => ?_, hstopped, fun hparting => ?_, fun hover => ?_⟩
  · rwa [hreading]
  · exact .inl (hreading.symm.trans hparting)
  · exact .inl (hreading.symm.trans hover)

/-- A session that had not dropped its subscription for good goes on reading. -/
theorem of_read {r : Reading} (hbefore : s.reading.isFinal = false) (hafter : r.isFinal = false) :
    s.AgesTo { s with reading := r } := by
  refine ⟨rfl, id, fun hfinal => ?_, id, fun hparting => ?_, fun hover => ?_⟩
  · rw [hbefore] at hfinal
    cases hfinal
  · obtain rfl : r = .parting := hparting
    cases hafter
  · obtain rfl : r = .done := hover
    cases hafter

end Session.AgesTo

namespace Hall

variable {h h' : Hall} {m : Move} {i : Nat} {s : Session}

/-! ## No step back -/

/-- What is put in the place of a session makes no step back for any, if it makes none for
that one. -/
theorem agesTo_put {t t' : Session} (ht : h.sessions[i]? = some t) (hages : t.AgesTo t') {j : Nat}
    (hs : h.sessions[j]? = some s) :
    ∃ s', (h.put i t').sessions[j]? = some s' ∧ s.AgesTo s' := by
  by_cases hij : i = j
  · subst hij
    obtain rfl := Option.some.inj (hs.symm.trans ht)
    refine ⟨t', ?_, hages⟩
    rw [put, List.getElem?_set_self', ht]
    rfl
  · exact ⟨s, by rwa [put, List.getElem?_set_ne hij], .refl s⟩

/-- What changes a session makes no step back for any, if it makes none for that one. -/
theorem agesTo_change {f : Session → Session} (hages : ∀ t : Session, t.AgesTo (f t)) {j : Nat}
    (hs : h.sessions[j]? = some s) :
    ∃ s', (h.change i f).sessions[j]? = some s' ∧ s.AgesTo s' := by
  cases ht : h.sessions[i]? with
  | none =>
    rw [change_of_none ht]
    exact ⟨s, hs, .refl s⟩
  | some t =>
    rw [change_of_some ht]
    exact agesTo_put ht (hages t) hs

/-- Work is no step back. -/
theorem Works.agesTo (hw : Works h m h') (hs : h.sessions[i]? = some s) :
    ∃ s', h'.sessions[i]? = some s' ∧ s.AgesTo s' := by
  cases hw with
  | heed ht hreading | giveUp ht hreading | answer ht hreading | present ht hreading
  | join ht hreading =>
    refine agesTo_put ht ?_ hs
    refine .of_read ?_ rfl
    rw [hreading]
    rfl
  | @judge _ _ credential ht hreading =>
    refine agesTo_put ht (.of_read ?_ ?_) hs
    · rw [hreading]
      rfl
    · rcases judge_cases h.check h.clock credential with ⟨_, _, _, hjudge⟩ | ⟨_, hjudge⟩
      all_goals
        rw [hjudge]
        rfl
  | leave ht hreading =>
    refine agesTo_put ht ?_ hs
    refine ⟨rfl, fun _ => rfl, fun hfinal => ?_, id, nofun, nofun⟩
    rw [hreading] at hfinal
    cases hfinal
  | withdraw ht hreading =>
    refine agesTo_put ht ?_ hs
    exact ⟨rfl, id, fun _ => rfl, id, fun _ => .inr hreading, nofun⟩
  | part ht _ hstopped =>
    refine agesTo_put ht ?_ hs
    exact ⟨rfl, id, fun _ => rfl, id, nofun, fun _ => .inr hstopped⟩
  | ping ht hgoes | stall ht hgoes | rest ht hgoes =>
    refine agesTo_put ht ?_ hs
    refine .of_reading rfl rfl id fun hstopped => ?_
    cases hgoes.symm.trans hstopped
  | fail ht =>
    refine agesTo_put ht ?_ hs
    exact .of_reading rfl rfl (fun _ => rfl) fun _ => rfl
  | stop ht =>
    refine agesTo_put ht ?_ hs
    exact .of_reading rfl rfl id fun _ => rfl
  | close =>
    refine agesTo_change ?_ hs
    exact fun _ => .of_reading rfl rfl (fun _ => rfl) id
  | look | expire | write | refuse | dismiss => exact ⟨s, hs, .refl s⟩

/-- A session keeps its number in every move, and makes no step back. -/
theorem agesTo_step (m : Move) (hs : h.sessions[i]? = some s) :
    ∃ s', (h.step m).sessions[i]? = some s' ∧ s.AgesTo s' := by
  by_cases hm : m.isInternal
  · rcases works_step (h := h) hm with hidle | hw
    · rw [hidle]
      exact ⟨s, hs, .refl s⟩
    · exact hw.agesTo hs
  cases m with
  | connect connection =>
    refine ⟨s, ?_, .refl s⟩
    exact (List.getElem?_append_left (List.getElem?_eq_some_iff.mp hs).1).trans hs
  | receive j signal =>
    refine agesTo_change (fun t => ?_) hs
    split
    · rename_i hwaiting
      refine .of_read (by rw [hwaiting]; rfl) ?_
      rcases respond_cases signal with ⟨_, _, _, _, hrespond⟩ | hrespond | hrespond | hrespond
      all_goals
        rw [hrespond]
        rfl
    · exact .refl t
  | socket j socket =>
    refine agesTo_change ?_ hs
    exact fun _ => .of_reading rfl rfl id id
  | trigger | setClock | pass | shutDown => exact ⟨s, hs, .refl s⟩
  | notice | proceed | startPing | finishPing | stopPinging | deliver => exact absurd rfl hm

/-- A session keeps its number in every run, and its connection, and what it has done for
good is done. -/
theorem exists_session_run (moves : List Move) (hs : h.sessions[i]? = some s) :
    ∃ s', (h.run moves).sessions[i]? = some s' ∧ s'.connection = s.connection ∧
      (s.reading.isFinal → s'.reading.isFinal) ∧
      (s.pinging = .stopped → s'.pinging = .stopped) := by
  induction moves using List.reverseRecOn with
  | nil => exact ⟨s, hs, rfl, id, id⟩
  | append_singleton moves m ih =>
    obtain ⟨t, ht, hconnection, hfinal, hstopped⟩ := ih
    obtain ⟨s', hs', hages⟩ := agesTo_step m ht
    rw [run_append_singleton]
    exact ⟨s', hs', hages.connection.trans hconnection, fun hbefore => hages.final (hfinal hbefore),
      fun hbefore => hages.stopped (hstopped hbefore)⟩

/-- No work starts a session. -/
theorem Works.length_eq (hw : Works h m h') : h'.sessions.length = h.sessions.length := by
  cases hw with
  | close => exact List.length_modify ..
  | look | expire | write | refuse | dismiss => rfl
  | _ => exact List.length_set

/-- Moves start no sessions but for those that connect. -/
theorem length_step (h : Hall) (m : Move) :
    (h.step m).sessions.length = h.sessions.length ∨ ∃ connection, m = .connect connection := by
  by_cases hm : m.isInternal
  · rcases works_step (h := h) hm with hidle | hw
    · exact .inl (by rw [hidle])
    · exact .inl hw.length_eq
  cases m with
  | connect connection => exact .inr ⟨connection, rfl⟩
  | receive | socket => exact .inl (List.length_modify ..)
  | trigger | setClock | pass | shutDown => exact .inl rfl
  | notice | proceed | startPing | finishPing | stopPinging | deliver => exact absurd rfl hm

/-- A session that is there after a move was there before and made no step back, or the
move has started it. -/
theorem session_step (m : Move) {s' : Session} (hs' : (h.step m).sessions[i]? = some s') :
    (∃ s, h.sessions[i]? = some s ∧ s.AgesTo s') ∨
      ∃ connection, m = .connect connection ∧ i = h.sessions.length ∧
        s' = { connection, pingAt := h.elapsed + h.period,
               pinging := if h.period = 0 then .stopped else .resting } := by
  by_cases hold : i < h.sessions.length
  · obtain ⟨t, ht, hages⟩ := agesTo_step m (List.getElem?_eq_getElem hold)
    obtain rfl := Option.some.inj (ht.symm.trans hs')
    exact .inl ⟨_, List.getElem?_eq_getElem hold, hages⟩
  · obtain ⟨hi, hs'⟩ := List.getElem?_eq_some_iff.mp hs'
    rcases h.length_step m with hlength | ⟨connection, rfl⟩
    · omega
    · have hlast : i = h.sessions.length := by
        rw [step, connect, List.length_append, List.length_singleton] at hi
        omega
      subst hlast
      exact .inr ⟨connection, rfl, rfl, by simpa [step, connect] using hs'.symm⟩

/-! ## Nothing is left behind -/

/-- A session that is over has stopped pinging, at any time after a hall opened. -/
theorem stopped_of_done (check : Validator) (clock : Time.Instant) (period : Nat)
    (moves : List Move) (hs : ((opened check clock period).run moves).sessions[i]? = some s)
    (hdone : s.reading = .done) : s.pinging = .stopped := by
  induction moves using List.reverseRecOn generalizing s with
  | nil => cases hs
  | append_singleton moves m ih =>
    rw [run_append_singleton] at hs
    rcases session_step m hs with ⟨t, ht, hages⟩ | ⟨connection, rfl, _, rfl⟩
    · rcases hages.finished hdone with hover | hstopped
      · exact hages.stopped (ih ht hover)
      · exact hages.stopped hstopped
    · cases hdone

/-- No ping is written to a session that has stopped pinging. -/
theorem count_ping_step (m : Move) (hs : h.sessions[i]? = some s)
    (hstopped : s.pinging = .stopped) :
    (h.step m).outputs.count (.ping i) = h.outputs.count (.ping i) := by
  have hemit : ∀ o : Output, o ≠ .ping i →
      (h.outputs ++ [o]).count (.ping i) = h.outputs.count (.ping i) := by
    intro o ho
    rw [List.count_append, List.count_singleton, if_neg (by simpa using ho), Nat.add_zero]
  by_cases hm : m.isInternal
  · rcases works_step (h := h) hm with hidle | hw
    · rw [hidle]
    · revert hw
      generalize h.step m = h'
      intro hw
      cases hw with
      | answer | part | write => exact hemit _ nofun
      | @ping j t ht hresting =>
        refine hemit _ fun hsame => ?_
        obtain rfl : j = i := Output.ping.inj hsame
        obtain rfl := Option.some.inj (ht.symm.trans hs)
        cases hresting.symm.trans hstopped
      | _ => rfl
  cases m with
  | connect | receive | trigger | socket | setClock | pass | shutDown => rfl
  | notice | proceed | startPing | finishPing | stopPinging | deliver => exact absurd rfl hm

/-- No ping is written any more to a session that has stopped pinging. -/
theorem count_ping_run (moves : List Move) (hs : h.sessions[i]? = some s)
    (hstopped : s.pinging = .stopped) :
    (h.run moves).outputs.count (.ping i) = h.outputs.count (.ping i) := by
  induction moves using List.reverseRecOn with
  | nil => rfl
  | append_singleton moves m ih =>
    obtain ⟨t, ht, _, _, hstays⟩ := exists_session_run moves hs
    rw [run_append_singleton, count_ping_step m ht (hstays hstopped), ih]

/-- **Endings.** At any time after a hall opened, a session that has dropped its
subscription for good leaves none behind: whatever happens later, its connection has no
subscription, as long as no other session goes by the same connection, and no event starts
a delivery to it. And once the session is over no ping is written to it. Whether the
connection asked for the end, failed or ended, a reply, a delivery or a ping was refused, or
the hall was shut down, and where the session stood when it was closed, makes no
difference. -/
theorem nothing_outlives_session (check : Validator) (clock : Time.Instant) (period : Nat)
    (past later : List Move) (i : Nat) (s : Session)
    (hs : ((opened check clock period).run past).sessions[i]? = some s)
    (hfinal : s.reading.isFinal)
    (halone : ∀ j t, ((opened check clock period).run (past ++ later)).sessions[j]? = some t →
      t.connection = s.connection → j = i) :
    let h := (opened check clock period).run (past ++ later)
    (∀ e ∈ h.subscriptions.entries, e.connection ≠ s.connection ∧ e.reach.session ≠ i) ∧
    (∀ user event, ∃ started, (h.step (.trigger user event)).couriers = h.couriers ++ started ∧
      ∀ c ∈ started, c.delivery.target.connection ≠ s.connection ∧
        c.delivery.target.reach.session ≠ i) ∧
    (s.reading = .done → h.outputs.count (.ping i) =
      ((opened check clock period).run past).outputs.count (.ping i)) := by
  intro h
  have horder : h.Orderly := orderly_run check clock period (past ++ later)
  have hcons : h.Consistent := consistent_run check clock period (past ++ later)
  obtain ⟨s', hs', hconnection, hstays, _⟩ := exists_session_run later hs
  rw [← run_append] at hs'
  have hreached : ∀ e ∈ h.subscriptions.entries, e.reach.session ≠ i := by
    rintro e he rfl
    have hcan := hcons.held e he s' hs'
    rw [Reading.not_canBeSubscribed (hstays hfinal)] at hcan
    cases hcan
  have hnone : ∀ e ∈ h.subscriptions.entries,
      e.connection ≠ s.connection ∧ e.reach.session ≠ i := by
    intro e he
    refine ⟨fun hsame => ?_, hreached e he⟩
    obtain ⟨t, ht, howns⟩ := horder.connected e he
    exact hreached e he (halone _ t ht (howns.trans hsame))
  refine ⟨hnone, fun user event => ⟨_, rfl, fun c hc => ?_⟩, fun hdone => ?_⟩
  · obtain ⟨d, hd, rfl⟩ := List.mem_map.mp hc
    exact hnone d.target (Subscriptions.mem_trigger.mp hd).1
  · have hstopped := stopped_of_done check clock period past hs hdone
    have hcount := count_ping_run later hs hstopped
    rwa [← run_append] at hcount

/-- A connection subscribes and an event is triggered, but its delivery is refused, just when
the connection presents another credential. The session is declared closed before it looks
at that, subscribes all the same, and ends because its answer is refused. -/
def cutShort : List Move :=
  [.connect "c", .receive 0 (.text oldText), .proceed 0, .proceed 0, .proceed 0, .proceed 0,
   .trigger "alice" ⟨.set, "d1"⟩, .deliver 0, .socket 0 { refusesFrames := true },
   .receive 0 (.text newText), .proceed 0, .deliver 0, .deliver 0, .deliver 0,
   .proceed 0, .proceed 0, .proceed 0, .proceed 0, .proceed 0, .stopPinging 0, .proceed 0]

/-- What has become of the hall by then. -/
theorem run_cutShort : (opened twoTokens minuteBefore 1000).run cutShort =
    { check := twoTokens, clock := minuteBefore, period := 1000
      sessions := [{ connection := "c", closed := true, reading := .done, pinging := .stopped,
                     pingAt := 1000, socket := { refusesFrames := true } }]
      events := 1
      outputs := [.frame 0 .authOk .answer, .goodbye 0] } := by
  simp only [cutShort, run, List.foldl_cons, List.foldl_nil, step, respond_oldText,
    respond_newText]
  rfl

/-- What may happen later: an event for the user of the second credential, and the time of
a ping. -/
def afterwards : List Move := [.trigger "bob" ⟨.set, "d1"⟩, .pass 1000, .startPing 0]

/-- Nothing of that session is left behind. -/
theorem cut_short_leaves_nothing :
    let h := (opened twoTokens minuteBefore 1000).run cutShort
    let h' := (opened twoTokens minuteBefore 1000).run (cutShort ++ afterwards)
    ∃ s, h.sessions[0]? = some s ∧ s.reading.isFinal ∧ s.reading = .done ∧
      (∀ j t, h'.sessions[j]? = some t → t.connection = s.connection → j = 0) ∧
      (∀ e ∈ h'.subscriptions.entries, e.connection ≠ s.connection ∧ e.reach.session ≠ 0) ∧
      h'.outputs.count (.ping 0) = h.outputs.count (.ping 0) := by
  intro h h'
  have hs : h.sessions[0]? = some _ := congrArg (fun h => h.sessions[0]?) run_cutShort
  have halone : ∀ j t, h'.sessions[j]? = some t → t.connection = "c" → j = 0 := by
    intro j t ht _
    have hlength : h'.sessions.length = 1 := by
      rw [show h' = h.run afterwards from run_append _ _ _, show h = _ from run_cutShort]
      rfl
    obtain ⟨hj, _⟩ := List.getElem?_eq_some_iff.mp ht
    omega
  obtain ⟨hnone, _, hpings⟩ := nothing_outlives_session twoTokens minuteBefore 1000 cutShort
    afterwards 0 _ hs rfl halone
  exact ⟨_, hs, rfl, rfl, halone, hnone, hpings rfl⟩

end Hall

end WaitingRoom
