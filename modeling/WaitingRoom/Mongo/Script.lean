import WaitingRoom.Mongo.Archive

/-!
# Scripted document databases

A database whose replies are laid down beforehand: one count, the same documents for every
search, and a command that is refused. It shows what is asked of a database and what is
made of its replies. Setting indexes up is replied to even by a silent one.
-/

namespace WaitingRoom.Mongo

/-- What a database replies: a count, documents, the name of the command it refuses, and
whether it stays silent once it has been set up. -/
structure Script where
  count : Option Int := none
  documents : List Value := []
  refused : String := ""
  silent : Bool := false

namespace Script

/-- The reply to a command. -/
def reply (s : Script) (c : Command) : Option Reply :=
  match c with
  | .createIndexes _ => if c.name == s.refused then some .refused else some .carriedOut
  | c =>
    if s.silent then none
    else if c.name == s.refused then some .refused
    else
      match c with
      | .count _ => some (.counted s.count)
      | .find .. => some (.documents s.documents)
      | _ => some .carriedOut

end Script

end WaitingRoom.Mongo
