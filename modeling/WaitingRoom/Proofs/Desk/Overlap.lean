import WaitingRoom.Proofs.Desk.Acts
import WaitingRoom.Proofs.Desk.Checks

/-!
# Requests that overlap

Where requests take turns, one of them may write or delete a record of another user, but
only if that record came after the request had looked: the desk goes by what it saw. So
nothing of the kind happens to requests between whose look and whose change nobody else
writes under the local id. Removals that fall due take what they find.
-/

namespace WaitingRoom

namespace Bustle

variable {acts : List Act} {act : Act} {position : Nat} {token : Token} {op : Operation}
  {id : String} {waiting : List Removal} {s s' : Bustle}

/-! ## What was done before -/

/-- Whether a request has looked under a local id, found it open to its user, and touched no
record since. -/
def Looked (acts : List Act) (position : Nat) (token : Token) (op : Operation) (id : String) :
    Prop :=
  ∃ (k : Nat) (look : Act), acts[k]? = some look ∧
    look.doer = .request position token op ∧ look.call = .read id ∧
    look.world.IsOpenTo token.userId id ∧
    ∀ (l : Nat) (other : Act), k < l → acts[l]? = some other →
      other.doer = .request position token op → other.call.touches = false

/-- Whether every record that is found now, but was not found when some act was done, has
been written since. -/
def Accounted (acts : List Act) (now : Store) : Prop :=
  ∀ (k : Nat) (look : Act) (id : String) (e : Device), acts[k]? = some look →
    look.world.store.find? id ≠ some e → now.find? id = some e →
    ∃ (m : Nat) (came : Act), k ≤ m ∧ acts[m]? = some came ∧ came.call = .write e

/-- The removals that were put off: on behalf of which user, and for which local id. -/
def putOff (acts : List Act) : List (String × String) :=
  acts.filterMap fun act => match act.call, act.doer with
    | .removeLater id, .request _ token _ => some (token.userId, id)
    | _, _ => none

theorem looked_eq : Looked acts position token op id = HasMade acts position token op (.read id)
    (fun w => w.IsOpenTo token.userId id) Call.touches := rfl

/-- Who has looked has done so still when somebody else has done something, or has done
something that touches no record. -/
theorem Looked.append (h : Looked acts position token op id)
    (hother : act.doer = .request position token op → act.call.touches = false) :
    Looked (acts ++ [act]) position token op id := by
  rw [looked_eq] at h ⊢
  exact h.append hother

/-- Who has just looked has looked. -/
theorem Looked.of_read (hdoer : act.doer = .request position token op)
    (hcall : act.call = .read id) (hopen : act.world.IsOpenTo token.userId id) :
    Looked (acts ++ [act]) position token op id := by
  rw [looked_eq]
  exact .of_last hdoer hcall hopen

/-- Where nothing but what was done changes the store, records are accounted for. -/
theorem Linked.accounted {now : Store} (h : Linked acts now) : Accounted acts now := by
  intro k look id e hlook hbefore hnow
  have hthen : (storeAt acts now k).find? id ≠ some e := by rwa [storeAt_of_some hlook]
  have hk : k ≤ acts.length := Nat.le_of_lt (List.getElem?_eq_some_iff.mp hlook).1
  rw [← storeAt_length acts now] at hnow
  obtain ⟨m, came, hkm, -, hcame, hwrite, -⟩ := h.exists_write hthen hk hnow
  exact ⟨m, came, hkm, hcame, hwrite⟩

/-- What was put off was put off still when one more act has been done. -/
theorem mem_putOff_append {user : String} (h : (user, id) ∈ putOff acts) :
    (user, id) ∈ putOff (acts ++ [act]) := by
  rw [putOff, List.filterMap_append]
  exact List.mem_append_left _ h

/-! ## What holds at every turn -/

/-- Why an act is done, given the acts before it: a request writes its user's records only,
and writes and deletes where it has looked; a removal deletes what it was put off for. -/
structure Founded (waiting : List Removal) (past : List Act) (act : Act) : Prop where
  written : ∀ position token op d, act.doer = .request position token op → act.call = .write d →
    d.userId = token.userId ∧ Looked past position token op d.localId
  deleted : ∀ position token op id, act.doer = .request position token op →
    act.call = .remove id → Looked past position token op id
  removal : ∀ r, act.doer = .removal r →
    act.call = .remove r.localId ∧ (r ∈ waiting ∨ ∃ user, (user, r.localId) ∈ putOff past)
  accounted : Accounted past act.world.store

/-- What holds of a desk whatever turns were taken. -/
structure Orderly (waiting : List Removal) (s : Bustle) : Prop where
  founded : Throughout (Founded waiting) s.acts
  accounted : Accounted s.acts s.world.store
  removals : ∀ r ∈ s.world.removals, r ∈ waiting ∨ ∃ user, (user, r.localId) ∈ putOff s.acts
  requests : ∀ position r p, s.requests[position]? = some r → r.rest = some p →
    ∃ known, p.LooksFirst r.token.userId known ∧
      ∀ id, known = some id → Looked s.acts position r.token r.operation id

/-- What is left of a request goes by what the request has looked at. -/
def goesByLooks : Saying := fun acts position token op p =>
  ∃ known, p.LooksFirst token.userId known ∧
    ∀ id, known = some id → Looked acts position token op id

theorem goesByLooks_isKept : goesByLooks.IsKept := by
  constructor
  · rintro acts act position token op p ⟨known, hlooks, hknown⟩ hdoer
    exact ⟨known, hlooks, fun id hid => (hknown id hid).append fun h => absurd h hdoer⟩
  · rintro acts w c position token op p q ⟨known, hlooks, hknown⟩ hnext hrest
    rcases hlooks.rest hnext hrest with ⟨hidle, hafter⟩ | hafter | ⟨id, rfl, hopen, hafter⟩
    · exact ⟨known, hafter, fun id hid => (hknown id hid).append fun _ => hidle⟩
    · exact ⟨none, hafter, fun id hid => by cases hid⟩
    · refine ⟨some id, hafter, fun id' hid' => ?_⟩
      obtain rfl := Option.some.inj hid'
      exact .of_read rfl rfl hopen

theorem Orderly.ofRequests (h : Orderly waiting s) : goesByLooks.OfRequests s := h.requests

theorem Orderly.opened (w : World) (asked : List (Token × Operation)) :
    Orderly w.removals (opened w asked) := by
  constructor
  · intro n act hact
    cases hact
  · intro k look id e hlook
    cases hlook
  · exact fun r hr => .inl hr
  · refine Saying.OfRequests.opened (I := goesByLooks) (fun position asking _ => ?_) w
    exact ⟨none, asking.2.looksFirst asking.1, fun id hid => by cases hid⟩

theorem Orderly.idle (h : Orderly waiting s) (hidle : s.Idle s') : Orderly waiting s' := by
  constructor
  · rw [hidle.acts]
    exact h.founded
  · rw [hidle.acts, hidle.store]
    exact h.accounted
  · rw [hidle.acts, hidle.removals]
    exact h.removals
  · exact h.ofRequests.idle hidle

theorem Orderly.remove (h : Orderly waiting s) (hlinked : Linked s.acts s.world.store)
    {r : Removal} (hr : s.world.removals[position]? = some r) :
    Orderly waiting (s.remove position r) := by
  have hput := h.removals r (List.mem_of_getElem? hr)
  constructor
  · apply h.founded.append_singleton
    constructor
    · intro position token op d hdoer
      cases hdoer
    · intro position token op id hdoer
      cases hdoer
    · intro r' hdoer
      cases hdoer
      exact ⟨rfl, hput⟩
    · exact h.accounted
  · exact (hlinked.remove position r).accounted
  · intro r' hr'
    have hold : r' ∈ s.world.removals := by
      apply List.mem_of_mem_eraseIdx (i := position)
      simpa [Bustle.remove, World.after_removals] using hr'
    exact (h.removals r' hold).imp_right (.imp fun _ => mem_putOff_append)
  · exact h.ofRequests.remove goesByLooks_isKept r

theorem Orderly.call (h : Orderly waiting s) (hlinked : Linked s.acts s.world.store)
    {r : Request} {c : Call} (hr : s.requests[position]? = some r) (hc : r.nextCall? = some c) :
    Orderly waiting (s.call position r c) := by
  obtain ⟨p, hp, hnext⟩ := Option.bind_eq_some_iff.mp hc
  obtain ⟨known, hlooks, hknown⟩ := h.requests position r p hr hp
  constructor
  · apply h.founded.append_singleton
    constructor
    · intro _ _ _ d hdoer hcall
      cases hdoer
      change c = .write d at hcall
      subst hcall
      obtain ⟨howner, hid⟩ := hlooks.of_write hnext
      exact ⟨howner, hknown _ hid⟩
    · intro _ _ _ id hdoer hcall
      cases hdoer
      change c = .remove id at hcall
      subst hcall
      exact hknown _ (hlooks.of_remove hnext)
    · intro r' hdoer
      cases hdoer
    · exact h.accounted
  · exact (hlinked.call position r c).accounted
  · intro r' hr'
    change r' ∈ (s.world.after c).removals at hr'
    rw [World.after_removals] at hr'
    split at hr'
    · rename_i id wait _
      rcases List.mem_append.mp hr' with hold | hnew
      · exact (h.removals r' hold).imp_right (.imp fun _ => mem_putOff_append)
      · obtain rfl := List.mem_singleton.mp hnew
        refine .inr ⟨r.token.userId, ?_⟩
        rw [Bustle.call, putOff, List.filterMap_append]
        exact List.mem_append_right _ List.mem_cons_self
    · exact (h.removals r' hr').imp_right (.imp fun _ => mem_putOff_append)
  · exact h.ofRequests.call goesByLooks_isKept hr hc

theorem Orderly.take (h : Orderly waiting s) (hlinked : Linked s.acts s.world.store) (t : Turn) :
    Orderly waiting (s.take t) := by
  rcases s.take_cases t with hidle | ⟨position, r, c, hr, hc, heq⟩ | ⟨position, r, hr, _, heq⟩
  · exact h.idle hidle
  · rw [heq]
    exact h.call hlinked hr hc
  · rw [heq]
    exact h.remove hlinked hr

theorem orderly_run (w : World) (asked : List (Token × Operation)) (turns : List Turn) :
    Orderly w.removals ((Bustle.opened w asked).run turns) := by
  refine (run_keeps (P := fun s => Linked s.acts s.world.store ∧ Orderly w.removals s)
    ⟨linked_opened w asked, .opened w asked⟩ ?_ turns).2
  rintro s t ⟨hlinked, horderly⟩
  exact ⟨hlinked.take t, horderly.take hlinked t⟩

end Bustle

/-! ## Records of other users -/

/-- Whether an act writes or deletes where a record is found. -/
def Act.Displaces (act : Act) (e : Device) : Prop :=
  act.world.store.find? e.localId = some e ∧
    ((∃ d, act.call = .write d ∧ d.localId = e.localId) ∨ act.call = .remove e.localId)

/-- **Overlap.** Whatever turns are taken: what a request writes is its user's record. If it
writes or deletes where another user's record is, it has looked there before and found its
user's record or nothing, it has touched no record since, and the other user's record was
written after that look by a request of that other user. A removal deletes only what it was
put off for: by a request that adopted a record with that local id, if it has not been
waiting from the beginning. -/
theorem displaced_record_came_after_look (w : World) (asked : List (Token × Operation))
    (turns : List Turn) (n : Nat) (act : Act)
    (hact : ((Bustle.opened w asked).run turns).acts[n]? = some act) :
    let acts := ((Bustle.opened w asked).run turns).acts
    (∀ position token op, act.doer = .request position token op →
      (∀ d, act.call = .write d → d.userId = token.userId) ∧
      ∀ e, act.Displaces e → e.userId ≠ token.userId →
        ∃ (k m : Nat) (look came : Act), k < m ∧ m < n ∧
          acts[k]? = some look ∧ look.doer = .request position token op ∧
          look.call = .read e.localId ∧ look.world.IsOpenTo token.userId e.localId ∧
          (∀ (l : Nat) (other : Act), k < l → l < n → acts[l]? = some other →
            other.doer = .request position token op → other.call.touches = false) ∧
          acts[m]? = some came ∧ came.call = .write e ∧ came.doer.user? = some e.userId) ∧
    (∀ r, act.doer = .removal r → act.call = .remove r.localId ∧
      (r ∈ w.removals ∨ ∃ user, (user, r.localId) ∈ Bustle.putOff (acts.take n))) := by
  intro acts
  have horderly := Bustle.orderly_run w asked turns
  have hfounded := horderly.founded n act hact
  refine ⟨fun position token op hdoer => ⟨fun d hcall => ?_, fun e he hforeign => ?_⟩, ?_⟩
  · exact (hfounded.written position token op d hdoer hcall).1
  · obtain ⟨hfind, hcall⟩ := he
    have hlooked : Bustle.Looked (acts.take n) position token op e.localId := by
      rcases hcall with ⟨d, hcall, hid⟩ | hcall
      · exact hid ▸ (hfounded.written position token op d hdoer hcall).2
      · exact hfounded.deleted position token op _ hdoer hcall
    obtain ⟨k, look, hlook, hlookdoer, hlookcall, hopen, hsince⟩ := hlooked
    have hbefore : look.world.store.find? e.localId ≠ some e := fun h => hforeign (hopen e h)
    obtain ⟨m, came, hkm, hcame, hwrite⟩ :=
      hfounded.accounted k look e.localId e hlook hbefore hfind
    have hne : k ≠ m := by
      rintro rfl
      obtain rfl := Option.some.inj (hlook.symm.trans hcame)
      rw [hlookcall] at hwrite
      cases hwrite
    have htaken {l : Nat} {other : Act} (h : (acts.take n)[l]? = some other) :
        l < n ∧ acts[l]? = some other := by
      rw [List.getElem?_take] at h
      split at h
      · exact ⟨by assumption, h⟩
      · cases h
    have hcamefounded := horderly.founded m came (htaken hcame).2
    have hwriter : came.doer.user? = some e.userId := by
      cases hcamedoer : came.doer with
      | request position' token' op' =>
        have howner := (hcamefounded.written position' token' op' e hcamedoer hwrite).1
        rw [howner]
        rfl
      | removal r =>
        have hremove := (hcamefounded.removal r hcamedoer).1
        rw [hwrite] at hremove
        cases hremove
    refine ⟨k, m, look, came, by omega, (htaken hcame).1, (htaken hlook).2, hlookdoer, hlookcall,
      hopen, ?_, (htaken hcame).2, hwrite, hwriter⟩
    intro l other hkl hln hother
    apply hsince l other hkl
    rw [List.getElem?_take, if_pos hln]
    exact hother
  · exact hfounded.removal

/-! ## Overlaps that cost a user a record -/

namespace Bustle

/-- Somebody without a particular credential. -/
def visitor (user : String) : Token := ⟨"", user, Time.Instant.epoch⟩

/-- A record that a user is about to write. -/
def lamp : Device := Device.named "d1" "lamp"

/-- The row of turns in which the request at a position makes a number of calls. -/
def calls (position number : Nat) : List Turn := List.replicate number (.proceed position)

/-- Two users write a record under the same free local id: both look before either writes. -/
def bothAtOnce : Bustle :=
  (opened {} [(visitor "alice", .set lamp), (visitor "bob", .set lamp)]).run
    (calls 0 2 ++ calls 1 2 ++ calls 0 2 ++ calls 1 2)

/-- A user hides a record and looks at it; meanwhile the user deletes it, and another one
writes a record under its local id; then the first one's record is written, hidden. -/
def hiddenLate : Bustle :=
  (opened {} [(visitor "alice", .set lamp), (visitor "alice", .hide "d1"),
    (visitor "alice", .delete "d1"), (visitor "bob", .set lamp)]).run
    (calls 0 4 ++ calls 1 1 ++ calls 2 3 ++ calls 3 4 ++ calls 1 2)

/-- A user adopts a record, which is to be removed once more after a minute; another one
writes a record under its local id; and a minute passes. -/
def removedLate : Bustle :=
  (opened { wait := some 60000 } [(visitor "alice", .set lamp), (visitor "alice", .use "d1"),
    (visitor "bob", .set lamp)]).run
    (calls 0 4 ++ calls 1 5 ++ calls 2 4 ++ [.pass 60000, .carryOut 0])

/-- What the second user has written. -/
def bobsLamp : Device := { lamp with userId := "bob" }

end Bustle

/-- The record that is overwritten by the one that was hidden late was written by its owner
after the hiding user had looked. -/
theorem late_hide_looked_early : ∃ act : Act, Bustle.hiddenLate.acts[12]? = some act ∧
    act.Displaces Bustle.bobsLamp ∧ act.doer.user? = some "alice" ∧
    ∃ (k m : Nat) (look came : Act), k < m ∧ m < 12 ∧
      Bustle.hiddenLate.acts[k]? = some look ∧ look.call = .read "d1" ∧
      Bustle.hiddenLate.acts[m]? = some came ∧ came.call = .write Bustle.bobsLamp ∧
      came.doer.user? = some "bob" := by
  have hlate : ∃ act : Act, Bustle.hiddenLate.acts[12]? = some act ∧
      act.doer = .request 1 (Bustle.visitor "alice") (.hide "d1") ∧
      act.Displaces Bustle.bobsLamp := ⟨_, rfl, rfl, rfl, .inl ⟨_, rfl, rfl⟩⟩
  obtain ⟨act, hact, hdoer, hdisplaces⟩ := hlate
  have hrequest := (displaced_record_came_after_look _ _ _ 12 act hact).1 _ _ _ hdoer
  obtain ⟨k, m, look, came, hkm, hmn, hlook, _, hread, _, _, hcame, hwrite, huser⟩ :=
    hrequest.2 Bustle.bobsLamp hdisplaces (by decide)
  refine ⟨act, hact, hdisplaces, ?_, k, m, look, came, hkm, hmn, hlook, hread, hcame, hwrite,
    huser⟩
  rw [hdoer]
  rfl

namespace Bustle

/-- Whether nothing is done to a record of a user but on that user's behalf. -/
def RespectsOwners (s : Bustle) : Prop :=
  ∀ (n : Nat) (act : Act), s.acts[n]? = some act → ∀ e, act.Displaces e →
    match act.doer with
    | .request _ token _ => token.userId = e.userId
    | .removal r => (e.userId, r.localId) ∈ putOff (s.acts.take n)

end Bustle

/-- Two users who write a record under the same local id at once are both told that they
have, and the second takes the place of the first; a record is overwritten with the old copy
of another user who hides it; and a record falls to a removal that another user's adoption
has put off. -/
theorem overlaps_cost_records :
    (¬ Bustle.bothAtOnce.RespectsOwners ∧ Bustle.bothAtOnce.succeeded = [true, true]) ∧
    (¬ Bustle.hiddenLate.RespectsOwners ∧ Bustle.hiddenLate.world.store.find? "d1" =
      some { Bustle.lamp with userId := "alice", hidden := true }) ∧
    ¬ Bustle.removedLate.RespectsOwners := by
  refine ⟨⟨fun h => ?_, rfl⟩, ⟨fun h => ?_, rfl⟩, fun h => ?_⟩
  · have hfor := h 6 _ rfl { Bustle.lamp with userId := "alice" } ⟨rfl, .inl ⟨_, rfl, rfl⟩⟩
    exact absurd hfor (by decide)
  · have hfor := h 12 _ rfl Bustle.bobsLamp ⟨rfl, .inl ⟨_, rfl, rfl⟩⟩
    exact absurd hfor (by decide)
  · have hfor := h 13 _ rfl Bustle.bobsLamp ⟨rfl, .inr rfl⟩
    exact absurd hfor (by decide)

end WaitingRoom
