import WaitingRoom.Subscriptions

/-!
# The registry

Where connections subscribe and events are handed in. What is asked of the registry is
answered at once. An event starts a delivery for each subscription to the user's devices;
every delivery is made by itself at some later time, taken or not, and nobody hears what
became of it. Whoever takes deliveries may turn to the registry in doing so, as others do.
-/

namespace WaitingRoom

/-- A delivery that was made, and whether it was taken. -/
structure Receipt (ρ : Type) where
  delivery : Delivery ρ
  taken : Bool
  deriving DecidableEq, Repr

/-- The subscriptions, the deliveries that were started and are yet to be made, and the
receipts for those that were made. -/
structure Registry (ρ : Type) where
  subscriptions : Subscriptions ρ := {}
  underway : List (Delivery ρ) := []
  receipts : List (Receipt ρ) := []
  deriving DecidableEq, Repr

/-- What happens at a registry: it is asked for something, or the delivery at some position
among those under way is made. -/
inductive RegistryStep (ρ : Type)
  | subscribe (connection user : String) (reach : ρ)
  | unsubscribe (connection : String)
  | trigger (user : String) (event : Event)
  | deliver (position : Nat) (taken : Bool)
  deriving DecidableEq, Repr

/-- What a registry answers: nothing, whether a subscription was dropped, or how many
deliveries were started. -/
inductive RegistryAnswer
  | nothing
  | dropped (any : Bool)
  | started (deliveries : Nat)
  deriving DecidableEq, Repr

namespace Registry

variable {ρ : Type}

/-- What is answered at a step. That a subscription was dropped is told by the number of
those that are left. -/
def answer (r : Registry ρ) : RegistryStep ρ → RegistryAnswer
  | .subscribe .. | .deliver .. => .nothing
  | .unsubscribe connection =>
    .dropped ((r.subscriptions.unsubscribe connection).size != r.subscriptions.size)
  | .trigger user event => .started (r.subscriptions.trigger user event).length

/-- The registry after a step. A delivery that is not under way cannot be made. -/
def step (r : Registry ρ) : RegistryStep ρ → Registry ρ
  | .subscribe connection user reach =>
    { r with subscriptions := r.subscriptions.subscribe connection user reach }
  | .unsubscribe connection =>
    { r with subscriptions := r.subscriptions.unsubscribe connection }
  | .trigger user event =>
    { r with underway := r.underway ++ r.subscriptions.trigger user event }
  | .deliver position taken =>
    match r.underway[position]? with
    | some delivery =>
      { r with
        underway := r.underway.eraseIdx position
        receipts := r.receipts ++ [⟨delivery, taken⟩] }
    | none => r

/-- The registry after a row of steps. -/
def run (r : Registry ρ) (steps : List (RegistryStep ρ)) : Registry ρ := steps.foldl step r

/-- What is answered along a row of steps. -/
def answers (r : Registry ρ) : List (RegistryStep ρ) → List RegistryAnswer
  | [] => []
  | s :: rest => r.answer s :: (r.step s).answers rest

/-- Forgets the receipts. -/
def forget (r : Registry ρ) : Registry ρ := { r with receipts := [] }

end Registry

end WaitingRoom
