import WaitingRoom.Postgres.Archive

/-!
# Scripted relational databases

A database whose replies are laid down beforehand: one count, the same rows for every
selection, and statements that are refused. It shows what is asked of a database and what
is made of its replies. Setting the table up is replied to even by a silent one.
-/

namespace WaitingRoom.Postgres

/-- What a database replies: a count, rows, the beginning of the statements it refuses,
and whether it stays silent once it has been set up. -/
structure Script where
  count : Option Int := none
  rows : List Row := []
  refused : String := ""
  silent : Bool := false

namespace Script

/-- The reply to a query. -/
def reply (s : Script) (q : Query) : Option Reply :=
  if s.silent && q.statement != .createTable then none
  else if !s.refused.isEmpty && q.statement.text.startsWith s.refused then some .refused
  else
    match q.statement with
    | .count _ => some (.counted s.count)
    | .select .. => some (.rows s.rows)
    | _ => some .carriedOut

end Script

end WaitingRoom.Postgres
