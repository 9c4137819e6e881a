import Mathlib.Data.List.Induction
import WaitingRoom.Proofs.Desk.Rights

/-!
# Isolation of users

What is done on behalf of a user is confined to that user's records. The desk makes
none but rightful calls, a rightful call is confined to its user, and confinement is
transitive, so whole operations are confined; a user who asks for nothing finds the
records as they were, whatever all others have asked for.
-/

namespace WaitingRoom

namespace World

/-- Whether all differences between two worlds are a user's own affair. -/
structure Confined (user : String) (w w' : World) : Prop where
  /-- Where something else is found than before, the user's record was there or none, and
  the user's record is there now or none. -/
  changes : ∀ id, w'.store.find? id ≠ w.store.find? id → w.IsOpenTo user id ∧ w'.IsOpenTo user id
  /-- All notice was given to the user. -/
  notices : ∃ given, w'.notices = w.notices ++ given ∧ ∀ n ∈ given, n.user = user

variable {user : String} {w w' w₁ w₂ w₃ : World}

/-- Whether a local id is open depends on nothing but what is found there. -/
theorem IsOpenTo.congr {id : String} (hopen : w.IsOpenTo user id)
    (hfind : w'.store.find? id = w.store.find? id) : w'.IsOpenTo user id := by
  intro d hd
  exact hopen d (hfind ▸ hd)

/-- If nothing happens, it is nobody else's affair. -/
theorem Confined.refl (user : String) (w : World) : Confined user w w := by
  refine ⟨fun id hne => absurd rfl hne, [], by simp, ?_⟩
  intro n hn
  cases hn

/-- What happens in two steps, each the user's own affair, is the user's own affair. -/
theorem Confined.trans (h₁ : Confined user w₁ w₂) (h₂ : Confined user w₂ w₃) :
    Confined user w₁ w₃ := by
  constructor
  · intro id hne
    by_cases hfirst : w₂.store.find? id = w₁.store.find? id
    · have hsecond : w₃.store.find? id ≠ w₂.store.find? id := hfirst ▸ hne
      obtain ⟨hopen₂, hopen₃⟩ := h₂.changes id hsecond
      exact ⟨hopen₂.congr hfirst.symm, hopen₃⟩
    · obtain ⟨hopen₁, hopen₂⟩ := h₁.changes id hfirst
      by_cases hsecond : w₃.store.find? id = w₂.store.find? id
      · exact ⟨hopen₁, hopen₂.congr hsecond⟩
      · exact ⟨hopen₁, (h₂.changes id hsecond).2⟩
  · obtain ⟨given₁, hgiven₁, huser₁⟩ := h₁.notices
    obtain ⟨given₂, hgiven₂, huser₂⟩ := h₂.notices
    refine ⟨given₁ ++ given₂, by rw [hgiven₂, hgiven₁, List.append_assoc], ?_⟩
    intro n hn
    rcases List.mem_append.mp hn with hn | hn
    · exact huser₁ n hn
    · exact huser₂ n hn

/-- Records of others stay as they are. -/
theorem Confined.mem_of_foreign (h : Confined user w w') {d : Device}
    (hmem : d ∈ w.store.records) (hforeign : d.userId ≠ user) : d ∈ w'.store.records := by
  have hfind := Store.find?_of_mem hmem
  by_cases hsame : w'.store.find? d.localId = w.store.find? d.localId
  · exact Store.mem_of_find? (hsame.trans hfind)
  · have howner := (h.changes d.localId hsame).1 d hfind
    exact absurd howner hforeign

end World

namespace Moment

/-- What is found in the store after a rightful call: where it is not what was found
before, the local id was open to the user and still is. -/
theorem IsRightful.changes {token : Token} {op : Operation} {m : Moment}
    (hright : m.IsRightful token op) {id : String}
    (hne : (m.world.after m.call).store.find? id ≠ m.world.store.find? id) :
    m.world.IsOpenTo token.userId id ∧ (m.world.after m.call).IsOpenTo token.userId id := by
  rcases World.after_find? hne with ⟨d, hcall, hid, hfound⟩ | ⟨hcall, hfound⟩
  · rw [IsRightful, hcall] at hright
    obtain ⟨howner, hopen⟩ := hright
    refine ⟨hid ▸ hopen, fun e he => ?_⟩
    obtain rfl := Option.some.inj (hfound.symm.trans he)
    exact howner
  · rw [IsRightful, hcall] at hright
    refine ⟨hright.2, fun e he => ?_⟩
    cases hfound.symm.trans he

/-- A rightful call is the user's own affair. -/
theorem IsRightful.confined {token : Token} {op : Operation} {m : Moment}
    (hright : m.IsRightful token op) :
    World.Confined token.userId m.world (m.world.after m.call) := by
  refine ⟨fun id hne => hright.changes hne, ?_⟩
  have hnotices := m.world.after_notices m.call
  obtain ⟨w, call⟩ := m
  cases call with
  | notify user e =>
    refine ⟨[⟨user, e⟩], hnotices, ?_⟩
    intro n hn
    rw [List.mem_singleton.mp hn]
    exact hright
  | _ => exact ⟨[], by simpa using hnotices, fun n hn => nomatch hn⟩

end Moment

namespace World

/-- What the desk does for an operation is the affair of the user who asked for it. -/
theorem perform_confined (w : World) (token : Token) (op : Operation) :
    Confined token.userId w (w.perform token op) :=
  run_respects (Confined.refl token.userId) Confined.trans (op.procedure token) w
    fun m hm => (w.callsOf_rightful token op m hm).confined

end World

/-- Whether an occasion has nothing to do with a user: somebody else asks for something,
or the clock is set. Time that passes may be the time of a removal. -/
def Occasion.Spares (user : String) : Occasion → Prop
  | .request token _ => token.userId ≠ user
  | .setClock _ => True
  | .pass _ => False

/-- Records of a user outlast whatever has nothing to do with that user. -/
theorem World.mem_meetAll {w : World} {occasions : List Occasion} {d : Device}
    (hspares : ∀ o ∈ occasions, o.Spares d.userId) (hmem : d ∈ w.store.records) :
    d ∈ (w.meetAll occasions).store.records := by
  induction occasions using List.reverseRecOn with
  | nil => exact hmem
  | append_singleton occasions o ih =>
    have hbefore := ih fun o ho => hspares o (List.mem_append_left _ ho)
    have hlast := hspares o (by simp)
    rw [meetAll_append_singleton]
    cases o with
    | request token op =>
      exact ((w.meetAll occasions).perform_confined token op).mem_of_foreign hbefore
        (Ne.symm hlast)
    | setClock now => exact hbefore
    | pass millis => exact hlast.elim

/-- **Isolation.** After any run, whichever calls fail or hang: an operation leaves the
records of others as they are; it changes what is found only where nothing or the user's
record was found before, and then nothing or the user's record is found afterwards; it
gives notice to the user alone; and every device it asks the device manager to adopt is
the user's record as the store has it, under the user's token. Records of a user outlast
every run in which others act. -/
theorem operations_isolated (w : World) (past : List Occasion) (token : Token) (op : Operation) :
    let before := w.meetAll past
    let after := before.perform token op
    (∀ d ∈ before.store.records, d.userId ≠ token.userId → d ∈ after.store.records) ∧
    (∀ id, after.store.find? id ≠ before.store.find? id →
      (∀ d, before.store.find? id = some d → d.userId = token.userId) ∧
      (∀ d, after.store.find? id = some d → d.userId = token.userId)) ∧
    (∃ given, after.notices = before.notices ++ given ∧ ∀ n ∈ given, n.user = token.userId) ∧
    (∀ m ∈ before.callsOf token op, ∀ t d, m.call = .adopt t d →
      t = token ∧ d.userId = token.userId ∧ m.world.store.find? d.localId = some d) ∧
    (∀ user, (∀ o ∈ past, o.Spares user) →
      ∀ d ∈ w.store.records, d.userId = user → d ∈ before.store.records) := by
  intro before after
  have hconfined := before.perform_confined token op
  refine ⟨fun d hmem => hconfined.mem_of_foreign hmem, hconfined.changes, hconfined.notices,
    ?_, ?_⟩
  · intro m hm t d hcall
    have hright := before.callsOf_rightful token op m hm
    rw [Moment.IsRightful, hcall] at hright
    exact hright
  · intro user hspares d hmem howner
    exact World.mem_meetAll (howner ▸ hspares) hmem

end WaitingRoom
