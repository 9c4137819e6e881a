import WaitingRoom.Event

/-!
# Subscriptions

Which connections want to hear of whose devices. A connection has at most one
subscription, since a new one takes the place of the old; the order is that in which
connections subscribed. With each subscription goes what is needed to reach the
connection.
-/

namespace WaitingRoom

/-- A connection that wants to hear of a user's devices, and how it is reached. -/
structure Subscription (ρ : Type) where
  connection : String
  user : String
  reach : ρ
  deriving DecidableEq, Repr

/-- Subscriptions in the order in which they were made. -/
structure Subscriptions (ρ : Type) where
  entries : List (Subscription ρ) := []
  deriving DecidableEq, Repr

namespace Subscriptions

variable {ρ : Type}

/-- Nobody has subscribed. -/
def empty : Subscriptions ρ := {}

/-- The number of subscriptions. -/
def size (s : Subscriptions ρ) : Nat := s.entries.length

/-- Whether nobody has subscribed. -/
def isEmpty (s : Subscriptions ρ) : Bool := s.entries.isEmpty

/-- Whether a connection has a subscription. -/
def has (s : Subscriptions ρ) (connection : String) : Bool :=
  s.entries.any fun e => e.connection == connection

/-- Drops the subscription of a connection. -/
def unsubscribe (s : Subscriptions ρ) (connection : String) : Subscriptions ρ :=
  ⟨s.entries.filter fun e => e.connection != connection⟩

/-- Subscribes a connection, in place of the subscription it had. -/
def subscribe (s : Subscriptions ρ) (connection user : String) (reach : ρ) : Subscriptions ρ :=
  ⟨(s.unsubscribe connection).entries ++ [⟨connection, user, reach⟩]⟩

/-- The subscriptions to a user's devices. -/
def targets (s : Subscriptions ρ) (user : String) : List (Subscription ρ) :=
  s.entries.filter fun e => e.user == user

end Subscriptions

/-- An event on its way to a connection that subscribed to it. -/
structure Delivery (ρ : Type) where
  target : Subscription ρ
  event : Event
  deriving DecidableEq, Repr

/-- The deliveries an event leads to: one for each subscription to the user's devices. -/
def Subscriptions.trigger {ρ : Type} (s : Subscriptions ρ) (user : String) (event : Event) :
    List (Delivery ρ) :=
  (s.targets user).map fun target => ⟨target, event⟩

end WaitingRoom
