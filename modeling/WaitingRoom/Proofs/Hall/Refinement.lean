import WaitingRoom.Proofs.Hall.Follows

/-!
# Sessions behave as lines

A hall is on its way to its lines whoever has done what, so it has reached them when nothing
is left to do; and what comes from outside at such a time sends it on its way to what becomes
of the lines. So if every step is run until nothing is left to do, what can be seen of the
sessions is what the lines say, each of which goes its own way.
-/

namespace WaitingRoom

/-- What is in a list in which one thing was changed was there before, or is what that one
was changed to. -/
theorem exists_of_getElem?_modify {α : Type} {l : List α} {f : α → α} {i j : Nat} {a' : α}
    (h : (l.modify i f)[j]? = some a') : ∃ a, l[j]? = some a ∧ a' = if i = j then f a else a := by
  rw [List.getElem?_modify] at h
  obtain ⟨a, ha, rfl⟩ := Option.map_eq_some_iff.mp h
  exact ⟨a, ha, rfl⟩

/-- What is in a list of what things come to is what something comes to that is there. -/
theorem exists_of_getElem?_map {α β : Type} {l : List α} {f : α → β} {i : Nat} {b : β}
    (h : (l.map f)[i]? = some b) : ∃ a, l[i]? = some a ∧ b = f a := by
  rw [List.getElem?_map] at h
  obtain ⟨a, ha, rfl⟩ := Option.map_eq_some_iff.mp h
  exact ⟨a, ha, rfl⟩

namespace Hall

variable {h h' : Hall} {b : Switchboard} {m : Move} {i : Nat} {s : Session} {l : Line}

/-! ## When nothing is left to do -/

namespace Follows

/-- At rest every seat has reached its line. -/
theorem rests (hf : h.Follows b) (hrest : h.AtRest) (hs : h.sessions[i]? = some s)
    (hl : b.lines[i]? = some l) : Rests b (h.seat i s) l := by
  have hforetells := hf.seats i s l hs hl
  have hcouriers : h.couriersTo i = [] := by
    rw [couriersTo, hrest.couriers_eq_nil hf.pulses, List.filter_nil]
  rcases hrest.reading_cases hf.pulses hf.parts_closed hs with hdone |
    ⟨hwaiting, hclosed, hshutting⟩
  · have hentries := hf.consistent.entriesOf_eq_nil hs (by rw [hdone]; rfl)
    exact .of_done hforetells hdone hcouriers hentries
  · obtain ⟨hsending, hdue⟩ := hrest.pinging hf.pulses hs
    refine .of_waiting hforetells ⟨hclosed, hf.shuttingDown_eq.trans hshutting⟩
      ⟨hsending, fun hresting => ?_⟩ hwaiting hcouriers
    rw [hf.elapsed_eq]
    exact hdue hresting

/-- A hall that follows a switchboard does so still when it has come to rest. -/
theorem settles (hf : h.Follows b) (hsettles : h.SettlesTo h') : h'.Follows b := by
  obtain ⟨moves, hinternal, rfl, -⟩ := hsettles
  induction moves using List.reverseRecOn with
  | nil => exact hf
  | append_singleton moves m ih =>
    rw [run_append_singleton]
    obtain ⟨hmoves, hm⟩ := List.forall_mem_append.mp hinternal
    rcases works_step (hm m (List.mem_singleton_self m)) with hidle | hw
    · rw [hidle]
      exact ih hmoves
    · exact (ih hmoves).works hw

/-! ## What comes from outside -/

/-- Nobody is subscribed through a session that is yet to start, and nothing is delivered or
written to it. -/
theorem seat_of_length_le (hf : h.Follows b) (hi : h.sessions.length ≤ i) (s : Session) :
    h.seat i s = { session := s, entries := [], couriers := [], frames := [] } := by
  have hnone : h.sessions[i]? = none := List.getElem?_eq_none_iff.mpr hi
  have hentries : h.entriesOf i = [] := by
    refine List.eq_nil_iff_forall_not_mem.mpr fun e he => ?_
    obtain ⟨hmem, rfl⟩ := mem_entriesOf.mp he
    obtain ⟨t, ht, _⟩ := hf.orderly.connected e hmem
    cases hnone.symm.trans ht
  have hcouriers : h.couriersTo i = [] := by
    refine List.eq_nil_iff_forall_not_mem.mpr fun c hc => ?_
    obtain ⟨hmem, rfl⟩ := mem_couriersTo.mp hc
    obtain ⟨t, ht, _⟩ := hf.consistent.reached c hmem
    cases hnone.symm.trans ht
  rw [seat, hentries, hcouriers, hf.silent i hi]

/-- What comes from outside leaves a hall following its lines if it leaves every seat on its
way to its line, and starts no second session of a connection. -/
theorem of_outside (hf : h.Follows b) (hm : ¬ m.isInternal)
    (hnew : ∀ connection ∈ m.connection?, connection ∉ b.lines.map Line.connection)
    (hseats : ∀ i s l, (h.step m).sessions[i]? = some s → (b.step m).lines[i]? = some l →
      Foretells (b.step m) ((h.step m).seat i s) l) : (h.step m).Follows (b.step m) := by
  have ht := transition_step h m
  have hconnections := b.connections_step m
  have hlength : (h.step m).sessions.length = h.sessions.length + m.connection?.toList.length := by
    cases m with
    | connect connection => exact List.length_append
    | receive | socket => exact List.length_modify ..
    | trigger | setClock | pass | shutDown => rfl
    | notice | proceed | startPing | finishPing | stopPinging | deliver => exact absurd rfl hm
  have hrest : (b.step m).clock = (h.step m).clock ∧ (b.step m).elapsed = (h.step m).elapsed ∧
      (b.step m).shuttingDown = (h.step m).shuttingDown ∧ (h.step m).outputs = h.outputs := by
    cases m with
    | connect | receive | socket | trigger =>
      exact ⟨hf.clock_eq, hf.elapsed_eq, hf.shuttingDown_eq, rfl⟩
    | setClock => exact ⟨rfl, hf.elapsed_eq, hf.shuttingDown_eq, rfl⟩
    | pass millis =>
      exact ⟨hf.clock_eq, congrArg (· + millis) hf.elapsed_eq, hf.shuttingDown_eq, rfl⟩
    | shutDown => exact ⟨hf.clock_eq, hf.elapsed_eq, rfl, rfl⟩
    | notice | proceed | startPing | finishPing | stopPinging | deliver => exact absurd rfl hm
  obtain ⟨hclock, helapsed, hshutting, houtputs⟩ := hrest
  refine ⟨?_, hclock, ?_, helapsed, hshutting, hf.orderly.step ht, ?_, hf.pulses.step m,
    hf.parts_closed.step hf.consistent m, ?_, ?_, hseats, fun i hi => ?_⟩
  · rw [ht.check_eq, ← hf.check_eq]
    cases m <;> rfl
  · rw [period_step, ← hf.period_eq]
    cases m <;> rfl
  · exact ⟨hf.consistent.held_step hf.orderly ht, hf.consistent.leaving_step ht,
      hf.consistent.reached_step hf.orderly ht⟩
  · have hlines := congrArg List.length hconnections
    simp only [List.length_map, List.length_append] at hlines
    rw [hlines, hlength, hf.length_eq]
  · rw [hconnections]
    refine List.nodup_append.mpr ⟨hf.apart, ?_, fun c hc c' hc' hsame => ?_⟩
    · cases m.connection? with
      | none => exact List.nodup_nil
      | some connection => exact List.nodup_singleton connection
    · subst hsame
      exact hnew c (Option.mem_toList.mp hc') hc
  · rw [framesTo, houtputs]
    exact hf.silent i (by omega)

/-- A session that starts follows its line. -/
theorem connect (hf : h.Follows b) (hrest : h.AtRest) {connection : String}
    (hnew : connection ∉ b.lines.map Line.connection) :
    (h.step (.connect connection)).Follows (b.step (.connect connection)) := by
  refine hf.of_outside nofun ?_ fun i s l hs hl => ?_
  · rintro _ ⟨⟩
    exact hnew
  change (h.sessions ++ _)[i]? = some s at hs
  change (b.lines ++ _)[i]? = some l at hl
  rw [List.getElem?_append] at hs hl
  rw [hf.length_eq] at hl
  by_cases hold : i < h.sessions.length
  · rw [if_pos hold] at hs hl
    exact (hf.rests hrest hs hl).foretells b.clock _
  · rw [if_neg hold] at hs hl
    obtain rfl := List.mem_singleton.mp (List.mem_of_getElem? hs)
    obtain rfl := List.mem_singleton.mp (List.mem_of_getElem? hl)
    change Foretells { b with lines := b.lines ++ [b.newLine connection] } (h.seat i _) _
    rw [hf.seat_of_length_le (Nat.not_lt.mp hold), ← hf.elapsed_eq, ← hf.period_eq]
    exact .newLine b connection _

/-- What a connection sends is heard by its session as by its line. -/
theorem receive (hf : h.Follows b) (hrest : h.AtRest) (i : Nat) (signal : Signal) :
    (h.step (.receive i signal)).Follows (b.step (.receive i signal)) := by
  refine hf.of_outside nofun nofun fun j s' l' hs' hl' => ?_
  obtain ⟨s, hs, rfl⟩ := exists_of_getElem?_modify hs'
  obtain ⟨l, hl, rfl⟩ := exists_of_getElem?_modify hl'
  have hrests := hf.rests hrest hs hl
  by_cases hij : i = j
  · rw [if_pos hij, if_pos hij]
    exact hrests.hear signal _
  · rw [if_neg hij, if_neg hij]
    exact hrests.foretells b.clock _

/-- How a connection takes what is written is the same for its session and its line. -/
theorem socket (hf : h.Follows b) (hrest : h.AtRest) (i : Nat) (socket : Socket) :
    (h.step (.socket i socket)).Follows (b.step (.socket i socket)) := by
  refine hf.of_outside nofun nofun fun j s' l' hs' hl' => ?_
  obtain ⟨s, hs, rfl⟩ := exists_of_getElem?_modify hs'
  obtain ⟨l, hl, rfl⟩ := exists_of_getElem?_modify hl'
  have hrests := hf.rests hrest hs hl
  by_cases hij : i = j
  · rw [if_pos hij, if_pos hij]
    exact hrests.socket socket _
  · rw [if_neg hij, if_neg hij]
    exact hrests.foretells b.clock _

/-- Sessions are told of an event as their lines are. -/
theorem trigger (hf : h.Follows b) (hrest : h.AtRest) (user : String) (event : Event) :
    (h.step (.trigger user event)).Follows (b.step (.trigger user event)) := by
  refine hf.of_outside nofun nofun fun i s l' hs hl' => ?_
  obtain ⟨l, hl, rfl⟩ := exists_of_getElem?_map hl'
  change Foretells _ ((h.trigger user event).seat i s) _
  rw [seat_trigger]
  exact (hf.rests hrest hs hl).tell user event h.events _ (hf.orderly.entriesOf_cases i)

/-- The time of tokens is the same for sessions and lines. -/
theorem setClock (hf : h.Follows b) (hrest : h.AtRest) (time : Time.Instant) :
    (h.step (.setClock time)).Follows (b.step (.setClock time)) :=
  hf.of_outside nofun nofun fun _ _ _ hs hl => (hf.rests hrest hs hl).foretells time b.lines

/-- Pings fall due for sessions as for their lines. -/
theorem pass (hf : h.Follows b) (hrest : h.AtRest) (millis : Nat) :
    (h.step (.pass millis)).Follows (b.step (.pass millis)) := by
  refine hf.of_outside nofun nofun fun i s l' hs hl' => ?_
  obtain ⟨l, hl, rfl⟩ := exists_of_getElem?_map hl'
  exact (hf.rests hrest hs hl).tick millis _

/-- Sessions are shut down as their lines are. -/
theorem shutDown (hf : h.Follows b) (hrest : h.AtRest) :
    (h.step .shutDown).Follows (b.step .shutDown) := by
  refine hf.of_outside nofun nofun fun i s l' hs hl' => ?_
  obtain ⟨l, hl, rfl⟩ := exists_of_getElem?_map hl'
  exact (hf.rests hrest hs hl).shutDown _

/-- Whatever comes next from outside when nothing is left to do, sessions follow their
lines. -/
theorem step (hf : h.Follows b) (hrest : h.AtRest) (m : Move)
    (hnew : ∀ connection ∈ m.connection?, connection ∉ b.lines.map Line.connection) :
    (h.step m).Follows (b.step m) := by
  cases m with
  | connect connection => exact hf.connect hrest (hnew connection rfl)
  | receive i signal => exact hf.receive hrest i signal
  | socket i socket => exact hf.socket hrest i socket
  | trigger user event => exact hf.trigger hrest user event
  | setClock time => exact hf.setClock hrest time
  | pass millis => exact hf.pass hrest millis
  | shutDown => exact hf.shutDown hrest
  | notice | proceed | startPing | finishPing | stopPinging | deliver =>
    rw [hrest _ rfl]
    exact hf

/-- Steps that are run until nothing is left to do leave sessions following their lines. -/
theorem plays {steps : List Move} (hf : h.Follows b) (hrest : h.AtRest)
    (hplays : h.Plays steps h')
    (hdistinct : (b.lines.map Line.connection ++ steps.filterMap Move.connection?).Nodup) :
    h'.Follows (b.run steps) ∧ h'.AtRest := by
  induction steps generalizing h b with
  | nil =>
    obtain rfl : h' = h := hplays
    exact ⟨hf, hrest⟩
  | cons m rest ih =>
    obtain ⟨settled, hsettles, hplays⟩ := hplays
    have hsplit : (m :: rest).filterMap Move.connection? =
        m.connection?.toList ++ rest.filterMap Move.connection? := by
      rw [List.filterMap_cons]
      cases m.connection? <;> rfl
    rw [hsplit, ← List.append_assoc, ← b.connections_step m] at hdistinct
    have hnew : ∀ connection ∈ m.connection?, connection ∉ b.lines.map Line.connection := by
      intro connection hconnection hold
      have happart := (List.nodup_append.mp hdistinct).1
      rw [b.connections_step m] at happart
      exact (List.nodup_append.mp happart).2.2 _ hold _ (Option.mem_toList.mpr hconnection) rfl
    exact ih ((hf.step hrest m hnew).settles hsettles) hsettles.atRest hplays hdistinct

end Follows

/-- A hall that opens follows a switchboard without lines. -/
theorem Follows.opened (check : Validator) (clock : Time.Instant) (period : Nat) :
    (opened check clock period).Follows { check, clock, period } := by
  refine ⟨rfl, rfl, rfl, rfl, rfl, .opened check clock period,
    consistent_run check clock period [], ?_, ?_, rfl, .nil, ?_, fun _ _ => rfl⟩
  · intro i s hs
    cases hs
  · intro i s hs
    cases hs
  · intro i s l hs
    cases hs

/-- When a hall opens nothing is left to do. -/
theorem AtRest.opened (check : Validator) (clock : Time.Instant) (period : Nat) :
    (opened check clock period).AtRest := by
  intro m hm
  cases m with
  | connect | receive | trigger | socket | setClock | pass | shutDown => cases hm
  | notice | finishPing | stopPinging => exact change_of_none rfl _
  | proceed | startPing | deliver => rfl

/-! ## What can be seen -/

/-- Whether what can be seen of a hall is what the lines of a switchboard say: there is a
session for each line, over if that is closed, the frames written to it are those of the
line, and who is subscribed, to whose devices and until when, is who is authenticated. -/
structure Shows (h : Hall) (b : Switchboard) : Prop where
  connections : h.sessions.map Session.connection = b.lines.map Line.connection
  finished : ∀ (i : Nat) (s : Session) (l : Line), h.sessions[i]? = some s → b.lines[i]? = some l →
    (s.reading = .done ↔ l.standing = .closed)
  written : ∀ i : Nat, h.framesTo i = b.lines[i]?.elim [] Line.written
  subscribed : (h.subscriptions.entries.map fun e =>
    (e.connection, e.user, e.reach.token.expiresAt)).Perm (b.lines.filterMap Line.subscription?)

namespace Follows

/-- At rest the frames written to a session are those of its line. -/
theorem framesTo_eq (hf : h.Follows b) (hrest : h.AtRest) (i : Nat) :
    h.framesTo i = b.lines[i]?.elim [] Line.written := by
  cases hl : b.lines[i]? with
  | none =>
    have hi := List.getElem?_eq_none_iff.mp hl
    rw [hf.length_eq] at hi
    exact hf.silent i hi
  | some l =>
    have hi := (List.getElem?_eq_some_iff.mp hl).1
    rw [hf.length_eq] at hi
    exact (hf.rests hrest (List.getElem?_eq_getElem hi) hl).written_eq.symm

/-- At rest those are subscribed who are authenticated. -/
theorem mem_subscribed (hf : h.Follows b) (hrest : h.AtRest) {t : String × String × Time.Instant} :
    (t ∈ h.subscriptions.entries.map fun e => (e.connection, e.user, e.reach.token.expiresAt)) ↔
      t ∈ b.lines.filterMap Line.subscription? := by
  constructor
  · intro ht
    obtain ⟨e, he, rfl⟩ := List.mem_map.mp ht
    obtain ⟨s, hs, hconnection⟩ := hf.orderly.connected e he
    obtain ⟨l, hl⟩ := hf.exists_line hs
    have hmem : e ∈ h.entriesOf e.reach.session := mem_entriesOf.mpr ⟨he, rfl⟩
    have hentries : h.entriesOf e.reach.session = [e] := by
      rcases hf.orderly.entriesOf_cases e.reach.session with hnone | ⟨e', hsome⟩
      · rw [hnone] at hmem
        cases hmem
      · rw [hsome] at hmem
        rw [hsome, List.mem_singleton.mp hmem]
    refine List.mem_filterMap.mpr ⟨l, List.mem_of_getElem? hl, ?_⟩
    rw [(hf.rests hrest hs hl).subscription?_eq, seat, hentries, ← hconnection]
    rfl
  · intro ht
    obtain ⟨l, hmem, hsubscribed⟩ := List.mem_filterMap.mp ht
    obtain ⟨i, hl⟩ := List.mem_iff_getElem?.mp hmem
    have hi := (List.getElem?_eq_some_iff.mp hl).1
    rw [hf.length_eq] at hi
    have hs := List.getElem?_eq_getElem hi
    rw [(hf.rests hrest hs hl).subscription?_eq] at hsubscribed
    obtain ⟨e, hhead, rfl⟩ := Option.map_eq_some_iff.mp hsubscribed
    obtain ⟨he, rfl⟩ := mem_entriesOf.mp (List.mem_of_mem_head? hhead)
    obtain ⟨s, hs', hconnection⟩ := hf.orderly.connected e he
    obtain rfl := Option.some.inj (hs'.symm.trans hs)
    exact List.mem_map.mpr ⟨e, he, by rw [← hconnection]; rfl⟩

/-- At rest who is subscribed is who is authenticated. -/
theorem subscribed_perm (hf : h.Follows b) (hrest : h.AtRest) :
    (h.subscriptions.entries.map fun e =>
      (e.connection, e.user, e.reach.token.expiresAt)).Perm
      (b.lines.filterMap Line.subscription?) := by
  refine (List.perm_ext_iff_of_nodup ?_ ?_).mpr fun _ => hf.mem_subscribed hrest
  · refine List.Nodup.of_map Prod.fst ?_
    rw [List.map_map]
    exact hf.orderly.distinct
  · refine List.pairwise_filterMap.mpr ((List.pairwise_map.mp hf.apart).imp ?_)
    rintro l l' hne t ht t' ht' rfl
    exact hne ((Line.connection_of_subscription? ht).symm.trans
      (Line.connection_of_subscription? ht'))

/-- At rest what can be seen of a hall is what its lines say. -/
theorem shows (hf : h.Follows b) (hrest : h.AtRest) : h.Shows b where
  connections := hf.connections_eq
  finished := fun _ _ _ hs hl => (hf.rests hrest hs hl).done_iff
  written := hf.framesTo_eq hrest
  subscribed := hf.subscribed_perm hrest

end Follows

/-- **Sessions behave as lines.** Take any row of steps, none of which starts a second session
of a connection, and let each be run until nothing is left to do, whoever does what first.
That is possible, and whichever way it goes, what can be seen of the hall is then what the
lines say, each of which is unauthenticated, authenticated as a user until a time, or closed,
and goes its own way. -/
theorem sessions_behave_as_lines (check : Validator) (clock : Time.Instant) (period : Nat)
    (steps : List Move) (hdistinct : (steps.filterMap Move.connection?).Nodup) :
    (∃ h, (opened check clock period).Plays steps h) ∧
      ∀ h, (opened check clock period).Plays steps h →
        h.Shows (Switchboard.run { check, clock, period } steps) := by
  have hf := Follows.opened check clock period
  refine ⟨exists_plays hf.pulses steps, fun h hplays => ?_⟩
  obtain ⟨hfollows, hrest⟩ := hf.plays (.opened check clock period) hplays hdistinct
  exact hfollows.shows hrest

/-- Two connections present credentials, and an event is triggered for the user of the first
before its time is over and once it is. Then the second refuses an update, and the first
presents another credential. -/
def visit : List Move :=
  [.connect "c", .connect "d", .receive 0 (.text oldText), .receive 1 (.text newText),
   .trigger "alice" ⟨.set, "d1"⟩, .setClock .epoch, .trigger "alice" ⟨.delete, "d1"⟩,
   .socket 1 { refusesFrames := true }, .trigger "bob" ⟨.set, "d2"⟩,
   .receive 0 (.text newText)]

/-- What the lines come to. -/
theorem run_visit : Switchboard.run { check := twoTokens, clock := minuteBefore } visit =
    { check := twoTokens
      lines := [
        { connection := "c", standing := .authenticated "bob" minuteAfter, pingAt := some 30000,
          written := [.authOk, .ofEvent ⟨.set, "d1"⟩, .authRequest, .authOk] },
        { connection := "d", standing := .closed, socket := { refusesFrames := true },
          written := [.authOk] }] } := by
  simp only [visit, Switchboard.run, List.foldl_cons, List.foldl_nil, Switchboard.step,
    Line.hear_of_presented respond_oldText, Line.hear_of_presented respond_newText]
  rfl

/-- So that is what is written to the connections, and the first is subscribed. -/
theorem visit_seen : (visit.filterMap Move.connection?).Nodup ∧
    ∃ h, (opened twoTokens minuteBefore 30000).Plays visit h ∧
      h.framesTo 0 = [.authOk, .ofEvent ⟨.set, "d1"⟩, .authRequest, .authOk] ∧
      h.framesTo 1 = [.authOk] ∧
      (h.subscriptions.entries.map fun e => (e.connection, e.user, e.reach.token.expiresAt)) =
        [("c", "bob", minuteAfter)] := by
  have hdistinct : (visit.filterMap Move.connection?).Nodup := by decide
  obtain ⟨⟨h, hplays⟩, hshows⟩ :=
    sessions_behave_as_lines twoTokens minuteBefore 30000 visit hdistinct
  have hseen := hshows h hplays
  rw [run_visit] at hseen
  refine ⟨hdistinct, h, hplays, hseen.written 0, hseen.written 1, ?_⟩
  exact List.perm_singleton.mp hseen.subscribed

end Hall

end WaitingRoom
