import WaitingRoom.Subscriptions

/-!
# Who is subscribed

What subscribing and unsubscribing do to the single subscription, and that no connection
ever has two.
-/

namespace WaitingRoom

namespace Subscriptions

variable {ρ : Type} {s : Subscriptions ρ} {e : Subscription ρ} {connection user : String}
  {reach : ρ}

/-- Unsubscribing drops the subscription of the connection and keeps all others. -/
@[simp] theorem mem_unsubscribe :
    e ∈ (s.unsubscribe connection).entries ↔ e ∈ s.entries ∧ e.connection ≠ connection := by
  simp [unsubscribe]

/-- Subscribing adds a subscription in place of the one that the connection had. -/
@[simp] theorem mem_subscribe :
    e ∈ (s.subscribe connection user reach).entries ↔
      (e ∈ s.entries ∧ e.connection ≠ connection) ∨ e = ⟨connection, user, reach⟩ := by
  simp [subscribe]

/-- An event leads to deliveries of that event to those who subscribed to the user's
devices. -/
theorem mem_trigger {event : Event} {d : Delivery ρ} :
    d ∈ s.trigger user event ↔
      d.target ∈ s.entries ∧ d.target.user = user ∧ d.event = event := by
  obtain ⟨target, event'⟩ := d
  simp only [trigger, targets, List.mem_map, List.mem_filter, beq_iff_eq]
  constructor
  · rintro ⟨e, ⟨hmem, huser⟩, heq⟩
    cases heq
    exact ⟨hmem, huser, rfl⟩
  · rintro ⟨hmem, huser, rfl⟩
    exact ⟨target, ⟨hmem, huser⟩, rfl⟩

/-- Whether all subscriptions are of different connections. -/
def Distinct (s : Subscriptions ρ) : Prop := (s.entries.map Subscription.connection).Nodup

/-- If nobody has subscribed, no connection has done so twice. -/
theorem Distinct.empty : (empty : Subscriptions ρ).Distinct := List.nodup_nil

/-- Unsubscribing leaves no connection with two subscriptions. -/
theorem Distinct.unsubscribe (h : s.Distinct) (connection : String) :
    (s.unsubscribe connection).Distinct :=
  h.sublist (List.filter_sublist.map Subscription.connection)

/-- Subscribing leaves no connection with two subscriptions, since the one it had goes
first. -/
theorem Distinct.subscribe (h : s.Distinct) (connection user : String) (reach : ρ) :
    (s.subscribe connection user reach).Distinct := by
  have hkept := h.unsubscribe connection
  unfold Distinct at hkept ⊢
  simp only [Subscriptions.subscribe, List.map_append, List.map_cons, List.map_nil]
  refine List.nodup_append.mpr ⟨hkept, by simp, ?_⟩
  intro c hc c' hc' heq
  obtain ⟨e, he, rfl⟩ := List.mem_map.mp hc
  exact (mem_unsubscribe.mp he).2 (heq.trans (List.mem_singleton.mp hc'))

end Subscriptions

end WaitingRoom
