import WaitingRoom.Json.Token

/-!
# JSON values

A text as a tree. A text that stops making sense somewhere is read into a tree as
well: it ends in a `broken` leaf at the place where reading stopped, and everything
to the left of that leaf is as written. A reader that works through the tree from
the left therefore meets a wrong value before a later broken one, and the other way
round.
-/

namespace WaitingRoom.Json

/-- A JSON value. The keys of a record are texts; where something else stands in a
key's place, it is kept as the key and the member's value is broken. -/
inductive Value
  | null
  | truth (value : Bool)
  | number (value : Numeral)
  | text (content : Option String)
  | list (items : List Value)
  | record (members : List (Value × Value))
  | broken
  deriving Inhabited

namespace Value

/-- The text as a value. -/
def ofString (s : String) : Value := .text (some s)

/-- The integer as a value. -/
def ofInt (n : Int) : Value := .number (Numeral.ofInt n)

/-- The natural number as a value. -/
def ofNat (n : Nat) : Value := .number (Numeral.ofInt n)

/-- A record with the given keys and values, in order. -/
def ofMembers (members : List (String × Value)) : Value :=
  .record (members.map fun (key, value) => (ofString key, value))

/-- Whether reading went through to the end of the value. A broken leaf can only be
the last one of a tree, so only the last parts are looked at. -/
def isWhole : Value → Bool
  | .broken => false
  | .list items =>
    match _h : items.getLast? with
    | none => true
    | some last => isWhole last
  | .record members =>
    match _h : members.getLast? with
    | none => true
    | some last => isWhole last.2
  | _ => true
termination_by v => sizeOf v
decreasing_by
  · have := List.sizeOf_lt_of_mem (List.mem_of_getLast? _h)
    simp only [list.sizeOf_spec]
    omega
  · have := List.sizeOf_lt_of_mem (List.mem_of_getLast? _h)
    have : sizeOf last.2 < sizeOf last := by
      cases last
      simp only [Prod.mk.sizeOf_spec]
      omega
    simp only [record.sizeOf_spec]
    omega

end Value

/-- A list or record that is still open: what it holds so far, last part first, and
for a record the key whose value is awaited. -/
inductive Frame
  | list (done : List Value)
  | record (done : List (Value × Value)) (key : Option Value)

/-- What may come next: a value; a value or the end of the list just opened; a comma
or the end; a key; a key or the end of the record just opened; a colon. -/
inductive Place
  | value
  | firstItem
  | separator
  | key
  | firstKey
  | colon
  deriving DecidableEq

/-- A value read from a text, and whether nothing but blanks follows it. -/
structure Reading where
  value : Value
  clean : Bool

namespace Frame

/-- Puts a finished value into the innermost open list or record. -/
def add (v : Value) : Frame → Frame
  | list done => list (v :: done)
  | record done (some key) => record ((key, v) :: done) none
  | record done none => record ((v, .broken) :: done) none

/-- The value an open list or record becomes when it is closed. -/
def close : Frame → Value
  | list done => .list done.reverse
  | record done (some key) => .record ((key, .broken) :: done).reverse
  | record done none => .record done.reverse

/-- The tree that is left when reading stops inside the open lists and records: the
innermost one ends in the broken leaf. -/
def abandon (stack : List Frame) : Value :=
  stack.foldl (fun inner frame => (frame.add inner).close) .broken

/-- What may come next inside the frame, after a comma. -/
def afterComma : Frame → Place
  | list _ => .value
  | record _ _ => .key

end Frame

/-- The value a token is on its own. -/
def Token.scalar? : Token → Option Value
  | .null => some .null
  | .truth b => some (.truth b)
  | .number n => some (.number n)
  | .text content => some (.text content)
  | _ => none

/-- What stands in the place of a key and is none, as far as readers look at it. -/
def Token.misplacedKey : Token → Value
  | .listOpen => .list [.broken]
  | .recordOpen => .record [(.broken, .broken)]
  | t => t.scalar?.getD .broken

/-- Builds the tree of a row of tokens, where `stack` holds the open lists and records,
the innermost first, and `place` says what may come next. -/
def build (place : Place) (stack : List Frame) : List Token → Reading
  | [] => ⟨Frame.abandon stack, false⟩
  | t :: rest =>
    let stuck : Reading := ⟨Frame.abandon stack, false⟩
    match place with
    | .value | .firstItem =>
      match t with
      | .listOpen => build .firstItem (.list [] :: stack) rest
      | .recordOpen => build .firstKey (.record [] none :: stack) rest
      | .listClose =>
        if place == .firstItem then
          match stack with
          | frame :: outer :: stack => build .separator (outer.add frame.close :: stack) rest
          | [frame] => ⟨frame.close, rest.isEmpty⟩
          | [] => stuck
        else stuck
      | t =>
        match t.scalar? with
        | none => stuck
        | some v =>
          match stack with
          | frame :: stack => build .separator (frame.add v :: stack) rest
          | [] => ⟨v, rest.isEmpty⟩
    | .separator =>
      match t, stack with
      | .comma, frame :: stack => build frame.afterComma (frame :: stack) rest
      | .listClose, .list done :: outer :: stack =>
        build .separator (outer.add (Frame.list done).close :: stack) rest
      | .listClose, [.list done] => ⟨(Frame.list done).close, rest.isEmpty⟩
      | .recordClose, .record done key :: outer :: stack =>
        build .separator (outer.add (Frame.record done key).close :: stack) rest
      | .recordClose, [.record done key] => ⟨(Frame.record done key).close, rest.isEmpty⟩
      | _, _ => stuck
    | .key | .firstKey =>
      match stack with
      | .record done _ :: stack =>
        match t with
        | .text content => build .colon (.record done (some (.text content)) :: stack) rest
        | .recordClose =>
          if place == .firstKey then
            match stack with
            | outer :: stack => build .separator (outer.add (.record done.reverse) :: stack) rest
            | [] => ⟨.record done.reverse, rest.isEmpty⟩
          else stuck
        | t => ⟨Frame.abandon (.record done (some t.misplacedKey) :: stack), false⟩
      | _ => stuck
    | .colon =>
      match t with
      | .colon => build .value stack rest
      | _ => stuck

/-- Reads a source into a tree. -/
def readSource (s : Source) : Reading := build .value [] (Token.scan s)

/-- Reads a text into a tree. -/
def readText (s : String) : Reading := readSource (Source.ofString s)

end WaitingRoom.Json
