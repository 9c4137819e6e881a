import WaitingRoom.Proofs.Desk.Acts
import WaitingRoom.Proofs.Desk.Rights

/-!
# Going by a reading

Whatever the desk hands to the device manager, and whatever it writes but for payloads, is a
record as it was read, at most hidden or shown. Each reading serves for one such call: before
the next one the desk reads again. Where requests take turns the record may have changed in
between, so what a request goes by is a reading of its own, however long ago that was.
-/

namespace WaitingRoom

variable {α β : Type} {id : String} {seen : Option Device}

/-! ## What a procedure goes by -/

/-- Whether a call ends what a reading is good for: the record is read again, something is
written or deleted, or a device is handed over. -/
def Call.endsReading : Call → Bool
  | .read _ | .write _ | .remove _ | .adopt _ _ => true
  | _ => false

/-- The local ids under which an operation may create records. -/
def Operation.creates : Operation → List String
  | set payload => [payload.localId]
  | setMany payloads => payloads.map Device.localId
  | _ => []

namespace Procedure

/-- Whether a procedure hands over only the record it read last, and writes under a local id
nothing but that record, hidden or not; `seen` is what it read since it last did so. -/
def GoesBy (id : String) : Procedure α → Option Device → Prop
  | .done _, _ => True
  | .now next, seen => ∀ t, (next t).GoesBy id seen
  | .read asked next, _ => ∀ found : Except Failure Device,
      (∀ d, found = .ok d → d.localId = asked) → (next found).GoesBy id found.toOption
  | .write e next, seen =>
      (e.localId = id → ∃ d hidden, seen = some d ∧ e = { d with hidden }) ∧
        ∀ r, (next r).GoesBy id none
  | .remove _ next, _ => ∀ r, (next r).GoesBy id none
  | .list _ _ next, seen => ∀ r, (next r).GoesBy id seen
  | .adopt _ d next, seen => seen = some d ∧ ∀ r, (next r).GoesBy id none
  | .removeLater _ next, seen => next.GoesBy id seen
  | .notify _ _ next, seen => next.GoesBy id seen

/-- What goes by no reading so far may follow one. -/
theorem GoesBy.of_none {p : Procedure α} (h : p.GoesBy id none) : p.GoesBy id seen := by
  induction p generalizing seen with
  | done => trivial
  | now next ih => exact fun t => ih t (h t)
  | read asked next => exact h
  | write e next =>
    refine ⟨fun he => ?_, h.2⟩
    obtain ⟨d, hidden, hseen, -⟩ := h.1 he
    cases hseen
  | remove _ next => exact h
  | list _ _ next ih => exact fun r => ih r (h r)
  | adopt _ d next => cases h.1
  | removeLater _ next ih | notify _ _ next ih => exact ih h

/-- Two procedures in a row go by readings if both do, the second by its own. -/
theorem GoesBy.bind {p : Procedure α} {f : α → Procedure β} (hp : p.GoesBy id seen)
    (hf : ∀ a, (f a).GoesBy id none) : (p.bind f).GoesBy id seen := by
  induction p generalizing seen with
  | done a => exact (hf a).of_none
  | now next ih => exact fun t => ih t (hp t)
  | read asked next ih => exact fun found hfound => ih found (hp found hfound)
  | write e next ih => exact ⟨hp.1, fun r => ih r (hp.2 r)⟩
  | adopt _ d next ih => exact ⟨hp.1, fun r => ih r (hp.2 r)⟩
  | remove _ next ih | list _ _ next ih => exact fun r => ih r (hp r)
  | removeLater _ next ih | notify _ _ next ih => exact ih hp

/-- Two procedures of which the second follows the success of the first. -/
theorem GoesBy.andThen {p : Procedure (Except Failure α)}
    {f : α → Procedure (Except Failure β)} (hp : p.GoesBy id seen)
    (hf : ∀ a, (f a).GoesBy id none) : (p.andThen f).GoesBy id seen := by
  apply hp.bind
  intro r
  cases r with
  | ok a => exact hf a
  | error f => trivial

/-- A batch goes by readings if each of its items does. -/
theorem GoesBy.each {p : α → Procedure (Except Failure β)} {items : List α}
    (hitem : ∀ a ∈ items, (p a).GoesBy id none) : (Procedure.each p items).GoesBy id none := by
  induction items with
  | nil => trivial
  | cons a rest ih =>
    obtain ⟨hfirst, hrest⟩ := List.forall_mem_cons.mp hitem
    apply hfirst.andThen
    intro b
    apply (ih hrest).andThen
    intro bs
    trivial

end Procedure

namespace Desk

open Procedure (GoesBy)

variable {token : Token}

/-- What follows the reading of one's own record may go by what was read. -/
theorem readOwned_goesBy {asked : String} {f : Device → Procedure (Except Failure β)}
    (hf : ∀ d, (f d).GoesBy id (some d)) :
    ((readOwned token asked).andThen f).GoesBy id none := by
  intro found _
  cases found with
  | error e => trivial
  | ok d =>
    cases howned : owned token.userId asked (.ok d) with
    | error e =>
      simp only [howned]
      trivial
    | ok e =>
      obtain rfl : d = e := by
        rw [owned] at howned
        split at howned
        · exact Except.ok.inj howned
        · cases howned
      simp only [howned]
      exact hf d

/-- Deleting a record hands nothing over and writes nothing. -/
theorem discard_goesBy (asked : String) (change : Change) :
    (discard token.userId asked change).GoesBy id none := by
  intro r
  cases r <;> trivial

/-- Writing what was read, hidden or not. -/
theorem store_goesBy {d e : Device} {asked : String}
    (he : e.localId = id → ∃ hidden, e = { d with hidden }) :
    (store token.userId e asked).GoesBy id (some d) := by
  refine ⟨fun hid => ?_, fun r => by cases r <;> trivial⟩
  obtain ⟨hidden, rfl⟩ := he hid
  exact ⟨d, hidden, rfl, rfl⟩

theorem set_goesBy {payload : Device} (hid : payload.localId ≠ id) :
    (set token payload).GoesBy id none := by
  unfold set
  split
  · trivial
  · intro now found _
    cases hprepared : prepared token now payload found with
    | error f =>
      simp only [hprepared]
      trivial
    | ok d =>
      obtain ⟨-, hsame, -⟩ := prepared_ok hprepared
      simp only [hprepared]
      refine ⟨fun he => absurd (hsame.symm.trans he) hid, fun r => ?_⟩
      cases r <;> trivial

theorem use_goesBy (asked : String) : (use token asked).GoesBy id none := by
  apply readOwned_goesBy
  intro d
  refine ⟨rfl, fun r => ?_⟩
  cases r with
  | error f => trivial
  | ok _ => exact discard_goesBy asked .use

theorem delete_goesBy (asked : String) : (delete token asked).GoesBy id none :=
  readOwned_goesBy fun _ => (discard_goesBy asked .delete).of_none

theorem setHidden_goesBy (hidden : Bool) (asked : String) :
    (setHidden token hidden asked).GoesBy id none :=
  readOwned_goesBy fun _ => store_goesBy fun _ => ⟨hidden, rfl⟩

theorem forget_goesBy {p : Procedure (Except Failure (List α))} (hp : p.GoesBy id none) :
    (forget p).GoesBy id none :=
  hp.andThen fun _ => trivial

end Desk

/-- Whatever a user asks for that creates no record under a local id, the desk goes by what it
read. -/
theorem Operation.goesBy (token : Token) {op : Operation} (hnew : id ∉ op.creates) :
    (op.procedure token).GoesBy id none := by
  cases op with
  | list o => exact fun _ => trivial
  | read asked => exact fun _ _ => trivial
  | set payload => exact Desk.set_goesBy fun h => hnew (by simp [creates, h])
  | use asked => exact Desk.use_goesBy asked
  | delete asked => exact Desk.delete_goesBy asked
  | hide asked => exact Desk.setHidden_goesBy true asked
  | «show» asked => exact Desk.setHidden_goesBy false asked
  | setMany payloads =>
    refine .each fun payload hpayload => Desk.set_goesBy fun h => hnew ?_
    exact List.mem_map.mpr ⟨payload, hpayload, h⟩
  | useMany ids => exact Desk.forget_goesBy (.each fun asked _ => Desk.use_goesBy asked)
  | deleteMany ids => exact Desk.forget_goesBy (.each fun asked _ => Desk.delete_goesBy asked)
  | hideMany ids =>
    exact Desk.forget_goesBy (.each fun asked _ => Desk.setHidden_goesBy true asked)
  | showMany ids =>
    exact Desk.forget_goesBy (.each fun asked _ => Desk.setHidden_goesBy false asked)

namespace Procedure.GoesBy

variable {w : World} {p q : Procedure α} {c : Call}

/-- What is handed over next is what was read. -/
theorem of_adopt {token : Token} {d : Device} (h : p.GoesBy id seen)
    (hnext : p.nextCall? = some (.adopt token d)) : seen = some d := by
  cases p with
  | adopt token' d' next =>
    cases hnext
    exact h.1
  | _ => cases hnext

/-- What is written next under the local id is what was read, hidden or not. -/
theorem of_write {e : Device} (h : p.GoesBy id seen) (hnext : p.nextCall? = some (.write e))
    (hid : e.localId = id) : ∃ d hidden, seen = some d ∧ e = { d with hidden } := by
  cases p with
  | write e' next =>
    cases hnext
    exact h.1 hid
  | _ => cases hnext

/-- What a procedure goes by after its next call: the same as before, nothing, or what it has
just read. -/
theorem rest (h : p.GoesBy id seen) (hnext : p.nextCall? = some c) (hrest : w.rest p = some q) :
    (c.endsReading = false ∧ q.GoesBy id seen) ∨ q.GoesBy id none ∨
      ∃ d, c = .read d.localId ∧ w.store.find? d.localId = some d ∧ q.GoesBy id (some d) := by
  cases p with
  | done => cases hnext
  | now | removeLater | notify =>
    cases hnext
    cases hrest
    first | exact .inl ⟨rfl, h⟩ | exact .inl ⟨rfl, h _⟩
  | list user o next =>
    cases hnext
    obtain ⟨r, _, rfl⟩ := Option.map_eq_some_iff.mp hrest
    exact .inl ⟨rfl, h r⟩
  | write e next =>
    obtain ⟨r, _, rfl⟩ := Option.map_eq_some_iff.mp hrest
    exact .inr (.inl (h.2 r))
  | adopt token d next =>
    obtain ⟨r, _, rfl⟩ := Option.map_eq_some_iff.mp hrest
    exact .inr (.inl (h.2 r))
  | remove asked next =>
    obtain ⟨r, _, rfl⟩ := Option.map_eq_some_iff.mp hrest
    exact .inr (.inl (h r))
  | read asked next =>
    cases hnext
    obtain ⟨found, hanswer, rfl⟩ := Option.map_eq_some_iff.mp hrest
    have hread : w.readCall asked = (some found, (w.readCall asked).2) := Prod.ext hanswer rfl
    have hlocal : ∀ d, found = .ok d → w.store.find? asked = some d := by
      rintro d rfl
      rcases World.readCall_result hread with hserved | hfailed
      · exact Store.find?_of_read hserved.symm
      · cases hfailed
    have hafter := h found fun d hd => Store.localId_of_find? (hlocal d hd)
    cases found with
    | error f => exact .inr (.inl hafter)
    | ok d =>
      have hfind := hlocal d rfl
      obtain rfl := Store.localId_of_find? hfind
      exact .inr (.inr ⟨d, rfl, hfind, hafter⟩)

end Procedure.GoesBy

namespace Bustle

/-! ## What a request goes by -/

variable {acts : List Act} {position : Nat} {token : Token} {op : Operation}

/-- Whether a request has read a record, and has done nothing since that ends what a reading is
good for. -/
def HasRead (acts : List Act) (position : Nat) (token : Token) (op : Operation) (d : Device) :
    Prop :=
  HasMade acts position token op (.read d.localId) (fun w => w.store.find? d.localId = some d)
    Call.endsReading

/-- What is left of a request goes by a reading of its own. -/
def goesByReading (id : String) : Saying := fun acts position token op p =>
  ∃ seen, p.GoesBy id seen ∧ ∀ d, seen = some d → HasRead acts position token op d

theorem goesByReading_fresh {asked : List (Token × Operation)}
    (hnew : ∀ asking ∈ asked, id ∉ asking.2.creates) (position : Nat) :
    ∀ asking ∈ asked,
      goesByReading id [] position asking.1 asking.2 (asking.2.procedure asking.1) :=
  fun asking hasking =>
    ⟨none, asking.2.goesBy asking.1 (hnew asking hasking), fun _ hd => by cases hd⟩

theorem goesByReading_isKept : (goesByReading id).IsKept := by
  constructor
  · rintro acts act position token op p ⟨seen, hgoes, hread⟩ hdoer
    exact ⟨seen, hgoes, fun d hd => HasMade.append (hread d hd) fun h => absurd h hdoer⟩
  · rintro acts w c position token op p q ⟨seen, hgoes, hread⟩ hnext hrest
    rcases hgoes.rest hnext hrest with ⟨hidle, hafter⟩ | hafter | ⟨d, rfl, hfind, hafter⟩
    · exact ⟨seen, hafter, fun d hd => HasMade.append (hread d hd) fun _ => hidle⟩
    · exact ⟨none, hafter, fun _ hd => by cases hd⟩
    · refine ⟨some d, hafter, fun e he => ?_⟩
      obtain rfl := Option.some.inj he
      exact HasMade.of_last rfl rfl hfind

end Bustle

end WaitingRoom
