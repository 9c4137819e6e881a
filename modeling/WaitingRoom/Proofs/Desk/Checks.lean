import WaitingRoom.Proofs.Desk.Rights
import WaitingRoom.Proofs.Desk.Turns

/-!
# Looking before writing

The desk looks under a local id before it writes or deletes there on a user's behalf, and
goes on only if it finds the user's record, or nothing. It does not look again when it
writes, so where requests take turns somebody else's record may have come in between. This
file proves that nothing else can happen: a record that is overwritten or deleted by
another user's request was written after that request had looked. The removals that are
put off by adoptions do not look at all.
-/

namespace WaitingRoom

variable {α β : Type} {user : String} {known : Option String}

/-- The local id that a read has shown to be open to a user, if it has: the user's record
was found there, or nothing. -/
def shownOpen (user id : String) : Except Failure Device → Option String
  | .ok d => if d.userId = user then some id else none
  | .error f => if f.isNotFound then some id else none

namespace Procedure

/-- Whether a procedure writes only records of a user, and writes and deletes only under
local ids it has looked at: the last it did with records was to read there, and the local
id was shown to be open to the user. `known` is the local id shown to be open so far. -/
def LooksFirst (user : String) : Procedure α → Option String → Prop
  | .done _, _ => True
  | .now next, known => ∀ t, (next t).LooksFirst user known
  | .read id next, _ => ∀ found : Except Failure Device,
      (∀ d, found = .ok d → d.localId = id) → (next found).LooksFirst user (shownOpen user id found)
  | .write d next, known =>
      d.userId = user ∧ known = some d.localId ∧ ∀ r, (next r).LooksFirst user none
  | .remove id next, known => known = some id ∧ ∀ r, (next r).LooksFirst user none
  | .list _ _ next, known => ∀ r, (next r).LooksFirst user known
  | .adopt _ _ next, known => ∀ r, (next r).LooksFirst user known
  | .removeLater _ next, known => next.LooksFirst user known
  | .notify _ _ next, known => next.LooksFirst user known

/-- What needs no look so far needs none after one. -/
theorem LooksFirst.of_none {p : Procedure α} (h : p.LooksFirst user none) :
    p.LooksFirst user known := by
  induction p generalizing known with
  | done => trivial
  | now next ih => exact fun t => ih t (h t)
  | read id next => exact h
  | write d next => cases h.2.1
  | remove id next => cases h.1
  | list _ _ next ih | adopt _ _ next ih => exact fun r => ih r (h r)
  | removeLater _ next ih | notify _ _ next ih => exact ih h

/-- Two procedures in a row look first if both do, the second without what the first has
seen. -/
theorem LooksFirst.bind {p : Procedure α} {f : α → Procedure β} (hp : p.LooksFirst user known)
    (hf : ∀ a, (f a).LooksFirst user none) : (p.bind f).LooksFirst user known := by
  induction p generalizing known with
  | done a => exact (hf a).of_none
  | now next ih => exact fun t => ih t (hp t)
  | read id next ih => exact fun found hfound => ih found (hp found hfound)
  | write d next ih => exact ⟨hp.1, hp.2.1, fun r => ih r (hp.2.2 r)⟩
  | remove id next ih => exact ⟨hp.1, fun r => ih r (hp.2 r)⟩
  | list _ _ next ih | adopt _ _ next ih => exact fun r => ih r (hp r)
  | removeLater _ next ih | notify _ _ next ih => exact ih hp

/-- Two procedures of which the second follows the success of the first. -/
theorem LooksFirst.andThen {p : Procedure (Except Failure α)}
    {f : α → Procedure (Except Failure β)} (hp : p.LooksFirst user known)
    (hf : ∀ a, (f a).LooksFirst user none) : (p.andThen f).LooksFirst user known := by
  apply hp.bind
  intro r
  cases r with
  | ok a => exact hf a
  | error f => trivial

/-- A batch looks first if it does so for each of its items. -/
theorem LooksFirst.each {p : α → Procedure (Except Failure β)} {items : List α}
    (hitem : ∀ a, (p a).LooksFirst user none) : (Procedure.each p items).LooksFirst user none := by
  induction items with
  | nil => trivial
  | cons a rest ih =>
    apply (hitem a).andThen
    intro b
    apply ih.andThen
    intro bs
    trivial

end Procedure

namespace Desk

open Procedure (LooksFirst)

variable {token : Token}

/-- What follows the reading of one's own record may go by what was read. -/
theorem readOwned_looksFirst {id : String} {f : Device → Procedure (Except Failure β)}
    (hf : ∀ d, d.localId = id → d.userId = token.userId →
      (f d).LooksFirst token.userId (some id)) :
    ((readOwned token id).andThen f).LooksFirst token.userId known := by
  intro found hfound
  cases found with
  | error e => trivial
  | ok d =>
    by_cases howner : d.userId = token.userId
    · have hown : owned token.userId id (.ok d) = .ok d := by
        simp [owned, Device.isOwnedBy, howner]
      simp only [hown, shownOpen, if_pos howner]
      exact hf d (hfound d rfl) howner
    · have hforeign : owned token.userId id (.ok d) = .error (.foreignDevice id) := by
        simp [owned, Device.isOwnedBy, howner]
      simp only [hforeign]
      trivial

/-- Writing a record of the user where one has looked. -/
theorem store_looksFirst {d : Device} (id : String) (howner : d.userId = user) :
    (store user d id).LooksFirst user (some d.localId) := by
  refine ⟨howner, rfl, fun r => ?_⟩
  cases r <;> trivial

/-- Deleting a record where one has looked. -/
theorem discard_looksFirst (id : String) (change : Change) :
    (discard user id change).LooksFirst user (some id) := by
  refine ⟨rfl, fun r => ?_⟩
  cases r <;> trivial

theorem set_looksFirst (payload : Device) : (set token payload).LooksFirst token.userId none := by
  unfold set
  split
  · trivial
  · intro now found _
    cases hprepared : prepared token now payload found with
    | error f =>
      simp only [hprepared]
      trivial
    | ok d =>
      obtain ⟨howner, hid, hfound⟩ := prepared_ok hprepared
      have hshown : shownOpen token.userId payload.localId found = some d.localId := by
        rcases hfound with ⟨old, rfl, hold⟩ | ⟨what, rfl⟩
        · rw [shownOpen, if_pos hold, hid]
        · rw [shownOpen, Failure.isNotFound, if_pos rfl, hid]
      simp only [hprepared, hshown]
      apply (store_looksFirst d.localId howner).andThen
      intro _
      trivial

theorem use_looksFirst (id : String) : (use token id).LooksFirst token.userId none := by
  apply readOwned_looksFirst
  intro d _ _ r
  cases r with
  | error f => trivial
  | ok _ => exact discard_looksFirst id .use

theorem delete_looksFirst (id : String) : (delete token id).LooksFirst token.userId none :=
  readOwned_looksFirst fun _ _ _ => discard_looksFirst id .delete

theorem setHidden_looksFirst (hidden : Bool) (id : String) :
    (setHidden token hidden id).LooksFirst token.userId none := by
  apply readOwned_looksFirst
  intro d hid howner
  rw [← hid]
  exact store_looksFirst d.localId howner

theorem forget_looksFirst {p : Procedure (Except Failure (List α))}
    (hp : p.LooksFirst user none) : (forget p).LooksFirst user none :=
  hp.andThen fun _ => trivial

end Desk

/-- Whatever a user asks for, the desk looks before it writes or deletes. -/
theorem Operation.looksFirst (token : Token) (op : Operation) :
    (op.procedure token).LooksFirst token.userId none := by
  cases op with
  | list o => exact fun _ => trivial
  | read id => exact fun _ _ => trivial
  | set payload => exact Desk.set_looksFirst payload
  | use id => exact Desk.use_looksFirst id
  | delete id => exact Desk.delete_looksFirst id
  | hide id => exact Desk.setHidden_looksFirst true id
  | «show» id => exact Desk.setHidden_looksFirst false id
  | setMany payloads => exact .each Desk.set_looksFirst
  | useMany ids => exact Desk.forget_looksFirst (.each Desk.use_looksFirst)
  | deleteMany ids => exact Desk.forget_looksFirst (.each Desk.delete_looksFirst)
  | hideMany ids => exact Desk.forget_looksFirst (.each (Desk.setHidden_looksFirst true))
  | showMany ids => exact Desk.forget_looksFirst (.each (Desk.setHidden_looksFirst false))

/-- Whether a call reads, writes or deletes a record. -/
def Call.touches : Call → Bool
  | .read _ | .write _ | .remove _ => true
  | _ => false

/-- What a procedure that looks first is about to write is the user's, and it has looked. -/
theorem Procedure.LooksFirst.of_write {p : Procedure α} {d : Device}
    (h : p.LooksFirst user known) (hnext : p.nextCall? = some (.write d)) :
    d.userId = user ∧ known = some d.localId := by
  cases p with
  | write d' next =>
    cases hnext
    exact ⟨h.1, h.2.1⟩
  | _ => cases hnext

/-- Where a procedure that looks first is about to delete, it has looked. -/
theorem Procedure.LooksFirst.of_remove {p : Procedure α} {id : String}
    (h : p.LooksFirst user known) (hnext : p.nextCall? = some (.remove id)) : known = some id := by
  cases p with
  | remove id' next =>
    cases hnext
    exact h.1
  | _ => cases hnext

/-- What a procedure that looks first knows after its next call: as much as before, if the
call touches no record; nothing; or what a read has shown. -/
theorem Procedure.LooksFirst.rest {w : World} {p q : Procedure α} {c : Call}
    (h : p.LooksFirst user known) (hnext : p.nextCall? = some c) (hrest : w.rest p = some q) :
    (c.touches = false ∧ q.LooksFirst user known) ∨ q.LooksFirst user none ∨
      ∃ id, c = .read id ∧ w.IsOpenTo user id ∧ q.LooksFirst user (some id) := by
  cases p with
  | done => cases hnext
  | now | removeLater | notify =>
    cases hnext
    cases hrest
    first | exact .inl ⟨rfl, h⟩ | exact .inl ⟨rfl, h _⟩
  | list user o next =>
    cases hnext
    obtain ⟨r, _, rfl⟩ := Option.map_eq_some_iff.mp hrest
    exact .inl ⟨rfl, h r⟩
  | adopt t d next =>
    cases hnext
    obtain ⟨r, _, rfl⟩ := Option.map_eq_some_iff.mp hrest
    exact .inl ⟨rfl, h r⟩
  | write d next =>
    obtain ⟨r, _, rfl⟩ := Option.map_eq_some_iff.mp hrest
    exact .inr (.inl (h.2.2 r))
  | remove id next =>
    obtain ⟨r, _, rfl⟩ := Option.map_eq_some_iff.mp hrest
    exact .inr (.inl (h.2 r))
  | read id next =>
    cases hnext
    obtain ⟨found, hanswer, rfl⟩ := Option.map_eq_some_iff.mp hrest
    have hread : w.readCall id = (some found, (w.readCall id).2) := Prod.ext hanswer rfl
    have hfound := World.readCall_result hread
    have hlocal : ∀ d, found = .ok d → w.store.find? id = some d := by
      rintro d rfl
      rcases hfound with hserved | hfailed
      · exact Store.find?_of_read hserved.symm
      · cases hfailed
    have hafter := h found fun d hd => Store.localId_of_find? (hlocal d hd)
    cases found with
    | ok d =>
      rw [shownOpen] at hafter
      split at hafter
      · rename_i howner
        refine .inr (.inr ⟨id, rfl, ?_, hafter⟩)
        intro e he
        rw [hlocal d rfl] at he
        exact Option.some.inj he ▸ howner
      · exact .inr (.inl hafter)
    | error f =>
      rw [shownOpen] at hafter
      split at hafter
      · rename_i hmissing
        refine .inr (.inr ⟨id, rfl, ?_, hafter⟩)
        intro e he
        rcases hfound with hserved | hfailed
        · rw [Store.find?_of_read_error hserved.symm] at he
          cases he
        · rw [Except.error.inj hfailed] at hmissing
          cases hmissing
      · exact .inr (.inl hafter)

end WaitingRoom
