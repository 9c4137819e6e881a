import WaitingRoom.Proofs.Desk.Turns

/-!
# What was done in turns

Where requests take turns, what is true of the desk is said of the row of acts so far: of each
act and those before it, of each request under way and what it has found, and of the store
that one act leaves to the next.
-/

namespace WaitingRoom

namespace Bustle

variable {acts : List Act} {act : Act} {position : Nat} {token : Token} {op : Operation}
  {s s' : Bustle}

/-! ## Rows of acts -/

/-- An act is done still when one more has been done. -/
theorem getElem?_append_of_some {n : Nat} {other : Act} (hother : acts[n]? = some other) :
    (acts ++ [act])[n]? = some other := by
  rw [List.getElem?_append_left (List.getElem?_eq_some_iff.mp hother).1]
  exact hother

/-- An act of a row is one of the earlier ones, or the last. -/
theorem of_getElem?_append {n : Nat} {other : Act} (hother : (acts ++ [act])[n]? = some other) :
    n < acts.length ∧ acts[n]? = some other ∨ n = acts.length ∧ other = act := by
  by_cases hn : n < acts.length
  · rw [List.getElem?_append_left hn] at hother
    exact .inl ⟨hn, hother⟩
  · have hlength := (List.getElem?_eq_some_iff.mp hother).1
    rw [List.length_append, List.length_singleton] at hlength
    obtain rfl : n = acts.length := by omega
    rw [List.getElem?_concat_length] at hother
    exact .inr ⟨rfl, (Option.some.inj hother).symm⟩

/-- What was done before an act is among what was done. -/
theorem of_getElem?_take {n l : Nat} {other : Act} (hother : (acts.take n)[l]? = some other) :
    l < n ∧ acts[l]? = some other := by
  rw [List.getElem?_take] at hother
  split at hother
  · exact ⟨by assumption, hother⟩
  · cases hother

/-- Whether something is true of every act of a row, given the acts before it. -/
def Throughout (Q : List Act → Act → Prop) (acts : List Act) : Prop :=
  ∀ n act, acts[n]? = some act → Q (acts.take n) act

/-- What is true throughout a row stays so when one more act is done of which it is true. -/
theorem Throughout.append_singleton {Q : List Act → Act → Prop} (h : Throughout Q acts)
    (hlast : Q acts act) : Throughout Q (acts ++ [act]) := by
  intro n other hother
  rcases of_getElem?_append hother with ⟨hn, hother⟩ | ⟨rfl, rfl⟩
  · rw [List.take_append_of_le_length (by omega)]
    exact h n other hother
  · rwa [List.take_left]

/-! ## What a request has found -/

/-- Whether a request has made a call in a world of some kind, and none since that `ends` what
the call is good for. -/
def HasMade (acts : List Act) (position : Nat) (token : Token) (op : Operation) (c : Call)
    (kind : World → Prop) (ends : Call → Bool) : Prop :=
  ∃ (k : Nat) (look : Act), acts[k]? = some look ∧
    look.doer = .request position token op ∧ look.call = c ∧ kind look.world ∧
    ∀ (l : Nat) (other : Act), k < l → acts[l]? = some other →
      other.doer = .request position token op → ends other.call = false

variable {c : Call} {kind : World → Prop} {ends : Call → Bool}

/-- A call is good still when somebody else has done something, or when the request has done
something that does not end it. -/
theorem HasMade.append (h : HasMade acts position token op c kind ends)
    (hother : act.doer = .request position token op → ends act.call = false) :
    HasMade (acts ++ [act]) position token op c kind ends := by
  obtain ⟨k, look, hlook, hdoer, hcall, hkind, hsince⟩ := h
  refine ⟨k, look, getElem?_append_of_some hlook, hdoer, hcall, hkind, ?_⟩
  intro l other hl hget hby
  rcases of_getElem?_append hget with ⟨_, hget⟩ | ⟨_, rfl⟩
  · exact hsince l other hl hget hby
  · exact hother hby

/-- What a request does last it has made. -/
theorem HasMade.of_last (hdoer : act.doer = .request position token op) (hcall : act.call = c)
    (hkind : kind act.world) : HasMade (acts ++ [act]) position token op c kind ends := by
  refine ⟨acts.length, act, List.getElem?_concat_length, hdoer, hcall, hkind, ?_⟩
  intro l other hl hget
  rcases of_getElem?_append hget with ⟨hlt, _⟩ | ⟨heq, _⟩ <;> omega

/-! ## What is kept of requests -/

/-- What is said of requests: of what is left of the one at a position, given what was done. -/
abbrev Saying := List Act → Nat → Token → (op : Operation) →
  Procedure (Except Failure op.Result) → Prop

namespace Saying

/-- What is said of requests is kept: it is said still when somebody else has done something,
and when the request itself has made its next call. -/
structure IsKept (I : Saying) : Prop where
  other : ∀ acts (act : Act) position token op p, I acts position token op p →
    act.doer ≠ .request position token op → I (acts ++ [act]) position token op p
  own : ∀ acts (w : World) c position token op p q, I acts position token op p →
    p.nextCall? = some c → w.rest p = some q →
      I (acts ++ [⟨⟨w, c⟩, .request position token op⟩]) position token op q

/-- What is said is true of all requests that are under way. -/
def OfRequests (I : Saying) (s : Bustle) : Prop :=
  ∀ position r p, s.requests[position]? = some r → r.rest = some p →
    I s.acts position r.token r.operation p

/-- What is said is true of all requests that are under way, and each call a request has made
is the next of a procedure of which it was true. -/
structure Holds (I : Saying) (s : Bustle) : Prop where
  requests : I.OfRequests s
  acts : Throughout (fun past act => ∀ position token op, act.doer = .request position token op →
    ∃ p, I past position token op p ∧ p.nextCall? = some act.call) s.acts

variable {I : Saying}

/-- What is said of requests that nothing has been done for is true when the desk opens. -/
theorem OfRequests.opened {asked : List (Token × Operation)}
    (hfresh : ∀ position, ∀ asking ∈ asked,
      I [] position asking.1 asking.2 (asking.2.procedure asking.1)) (w : World) :
    I.OfRequests (Bustle.opened w asked) := by
  intro position r p hr hp
  rw [Bustle.opened, List.getElem?_map] at hr
  obtain ⟨⟨token, op⟩, hasking, rfl⟩ := Option.map_eq_some_iff.mp hr
  cases hp
  exact hfresh position (token, op) (List.mem_of_getElem? hasking)

theorem OfRequests.idle (h : I.OfRequests s) (hidle : s.Idle s') : I.OfRequests s' := by
  rw [OfRequests, hidle.acts, hidle.requests]
  exact h

theorem OfRequests.remove (h : I.OfRequests s) (hkept : I.IsKept) (r : Removal) :
    I.OfRequests (s.remove position r) := by
  intro other r' p hr' hp
  exact hkept.other _ _ _ _ _ _ (h other r' p hr' hp) nofun

theorem OfRequests.call (h : I.OfRequests s) (hkept : I.IsKept) {r : Request} {c : Call}
    (hr : s.requests[position]? = some r) (hc : r.nextCall? = some c) :
    I.OfRequests (s.call position r c) := by
  intro other r' p' hr' hp'
  change (s.requests.set position (r.proceed s.world))[other]? = some r' at hr'
  by_cases hsame : position = other
  · subst hsame
    rw [List.getElem?_set_self (List.getElem?_eq_some_iff.mp hr).1] at hr'
    obtain rfl := Option.some.inj hr'
    obtain ⟨p, hp, hnext⟩ := Option.bind_eq_some_iff.mp hc
    change r.rest.bind s.world.rest = some p' at hp'
    rw [hp] at hp'
    exact hkept.own _ _ _ _ _ _ _ _ (h position r p hr hp) hnext hp'
  · rw [List.getElem?_set_ne hsame] at hr'
    refine hkept.other _ _ _ _ _ _ (h other r' p' hr' hp') fun hdoer => ?_
    exact hsame (Doer.request.inj hdoer).1

theorem Holds.take (h : I.Holds s) (hkept : I.IsKept) (t : Turn) : I.Holds (s.take t) := by
  rcases s.take_cases t with hidle | ⟨position, r, c, hr, hc, heq⟩ | ⟨position, r, -, -, heq⟩
  · refine ⟨h.requests.idle hidle, ?_⟩
    rw [hidle.acts]
    exact h.acts
  · rw [heq]
    refine ⟨h.requests.call hkept hr hc, h.acts.append_singleton fun _ _ _ hdoer => ?_⟩
    obtain ⟨p, hp, hnext⟩ := Option.bind_eq_some_iff.mp hc
    cases hdoer
    exact ⟨p, h.requests position r p hr hp, hnext⟩
  · rw [heq]
    refine ⟨h.requests.remove hkept r, h.acts.append_singleton fun _ _ _ hdoer => ?_⟩
    cases hdoer

/-- What is kept holds at a desk whatever turns are taken. -/
theorem IsKept.holds (hkept : I.IsKept) {asked : List (Token × Operation)}
    (hfresh : ∀ position, ∀ asking ∈ asked,
      I [] position asking.1 asking.2 (asking.2.procedure asking.1))
    (w : World) (turns : List Turn) : I.Holds ((Bustle.opened w asked).run turns) := by
  refine run_keeps ⟨.opened hfresh w, ?_⟩ (fun _ t h => h.take hkept t) turns
  intro n act hact
  cases hact

end Saying

/-! ## What the store becomes from act to act -/

/-- The store before the act with a number; after the last one, the store as it is now. -/
def storeAt (acts : List Act) (now : Store) (n : Nat) : Store :=
  match acts[n]? with
  | some act => act.world.store
  | none => now

/-- Whether the store is changed by what was done and by nothing else. -/
def Linked (acts : List Act) (now : Store) : Prop :=
  ∀ (n : Nat) (act : Act), acts[n]? = some act →
    storeAt acts now (n + 1) = (act.world.after act.call).store

variable {now : Store} {id : String}

theorem storeAt_of_some {n : Nat} (hact : acts[n]? = some act) :
    storeAt acts now n = act.world.store := by
  rw [storeAt, hact]

theorem storeAt_length (acts : List Act) (now : Store) : storeAt acts now acts.length = now := by
  rw [storeAt, List.getElem?_eq_none (Nat.le_refl _)]

theorem Linked.append_singleton (h : Linked acts now) (hnow : act.world.store = now) :
    Linked (acts ++ [act]) (act.world.after act.call).store := by
  have hsame {n : Nat} (hn : n ≤ acts.length) :
      storeAt (acts ++ [act]) (act.world.after act.call).store n = storeAt acts now n := by
    rcases Nat.lt_or_eq_of_le hn with hlt | rfl
    · rw [storeAt, storeAt, List.getElem?_append_left hlt]
      cases hn : acts[n]? with
      | none => exact absurd (List.getElem?_eq_none_iff.mp hn) (Nat.not_le.mpr hlt)
      | some _ => rfl
    · rw [storeAt_length, storeAt_of_some List.getElem?_concat_length, hnow]
  intro n other hother
  rcases of_getElem?_append hother with ⟨hn, hother⟩ | ⟨rfl, rfl⟩
  · rw [hsame hn]
    exact h n other hother
  · have hend := storeAt_length (acts ++ [other]) (other.world.after other.call).store
    rwa [List.length_append, List.length_singleton] at hend

theorem linked_opened (w : World) (asked : List (Token × Operation)) :
    Linked (Bustle.opened w asked).acts (Bustle.opened w asked).world.store := by
  intro n act hact
  cases hact

theorem Linked.call (h : Linked s.acts s.world.store) (position : Nat) (r : Request) (c : Call) :
    Linked (s.call position r c).acts (s.call position r c).world.store :=
  h.append_singleton rfl

theorem Linked.remove (h : Linked s.acts s.world.store) (position : Nat) (r : Removal) :
    Linked (s.remove position r).acts (s.remove position r).world.store :=
  h.append_singleton rfl

theorem Linked.take (h : Linked s.acts s.world.store) (t : Turn) :
    Linked (s.take t).acts (s.take t).world.store := by
  rcases s.take_cases t with hidle | ⟨position, r, c, -, -, heq⟩ | ⟨position, r, -, -, heq⟩
  · rw [hidle.acts, hidle.store]
    exact h
  · rw [heq]
    exact h.call position r c
  · rw [heq]
    exact h.remove position r

theorem linked_run (w : World) (asked : List (Token × Operation)) (turns : List Turn) :
    Linked ((Bustle.opened w asked).run turns).acts
      ((Bustle.opened w asked).run turns).world.store :=
  run_keeps (P := fun s => Linked s.acts s.world.store) (linked_opened w asked)
    (fun _ t h => h.take t) turns

/-- A record that is found after an act was found before, or the act has written it. -/
theorem Linked.find?_succ (h : Linked acts now) {n : Nat} {e : Device}
    (hfind : (storeAt acts now (n + 1)).find? id = some e) :
    (storeAt acts now n).find? id = some e ∨
      ∃ act, acts[n]? = some act ∧ act.call = .write e ∧ e.localId = id := by
  cases hact : acts[n]? with
  | none =>
    have hlast : acts[n + 1]? = none :=
      List.getElem?_eq_none (Nat.le_succ_of_le (List.getElem?_eq_none_iff.mp hact))
    rw [storeAt, hlast] at hfind
    rw [storeAt, hact]
    exact .inl hfind
  | some act =>
    rw [h n act hact] at hfind
    rw [storeAt_of_some hact]
    by_cases hthere : act.world.store.find? id = some e
    · exact .inl hthere
    · have hchanged : (act.world.after act.call).store.find? id ≠ act.world.store.find? id := by
        rw [hfind]
        exact Ne.symm hthere
      rcases World.after_find? hchanged with ⟨d, hwrite, hid, hd⟩ | ⟨-, hnone⟩
      · obtain rfl := Option.some.inj (hd.symm.trans hfind)
        exact .inr ⟨act, rfl, hwrite, hid⟩
      · rw [hfind] at hnone
        cases hnone

/-- A record that is found where it was not found before was written in between. -/
theorem Linked.exists_write (h : Linked acts now) {r n : Nat} {e : Device}
    (hbefore : (storeAt acts now r).find? id ≠ some e) (hle : r ≤ n)
    (hafter : (storeAt acts now n).find? id = some e) :
    ∃ j act, r ≤ j ∧ j < n ∧ acts[j]? = some act ∧ act.call = .write e ∧ e.localId = id := by
  induction hle with
  | refl => exact absurd hafter hbefore
  | @step n hle ih =>
    rcases h.find?_succ hafter with hthere | ⟨act, hact, hwrite⟩
    · obtain ⟨j, act, hr, hj, hact, hwrite⟩ := ih hthere
      exact ⟨j, act, hr, Nat.lt_succ_of_lt hj, hact, hwrite⟩
    · exact ⟨n, act, hle, Nat.lt_succ_self n, hact, hwrite⟩

end Bustle

end WaitingRoom
