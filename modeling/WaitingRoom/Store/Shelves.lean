import WaitingRoom.Store.Copy
import WaitingRoom.Store.Service

/-!
# Shelves

Stores under names, and copies from one of them to another, which may be the same.
-/

namespace WaitingRoom

/-- Stores under names; a name without an entry stands for an empty store. -/
abbrev Shelves := List (String × StoreService)

namespace Shelves

/-- The store of a name. -/
def find (s : Shelves) (name : String) : StoreService := (s.lookup name).getD {}

/-- Puts a store under a name, in place of the one that was there. -/
def put (name : String) (service : StoreService) : Shelves → Shelves
  | [] => [(name, service)]
  | (key, old) :: rest =>
    if key == name then (name, service) :: rest else (key, old) :: put name service rest

/-- Sets up the store of a name, unless it is there. -/
def touch (s : Shelves) (name : String) : Shelves := s.put name (s.find name)

/-- The route from one name to another. -/
def route (source target : String) : CopyRoute Shelves where
  fetch offset limit s :=
    let (page, service) := (s.find source).fetch offset limit
    (StoreService.orTimeout page, s.put source service)
  write d s :=
    let (written, service) := (s.find target).write d
    (StoreService.orTimeout written, s.put target service)

/-- Copies all records from one name to another, `batch` at a time. -/
def copy (s : Shelves) (source target : String) (batch : Int) :
    Option (Except Failure Nat) × Shelves :=
  (route source target).copy batch s

end Shelves

end WaitingRoom
