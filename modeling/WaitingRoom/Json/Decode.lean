import WaitingRoom.Json.Value

/-!
# Reading values of the domain from JSON

Readers work through a tree from the left and stop at the first fault: either the
text is no JSON there, or it is JSON of a shape that does not fit. Records may also
be given by position, as a list of their fields.
-/

namespace WaitingRoom.Json

/-- What is wrong with a text: it is not well formed, or what it says does not fit. -/
inductive Fault
  | malformed
  | mismatched
  deriving DecidableEq, Repr

/-- The outcome of reading a value. -/
abbrev Decoded (α : Type) := Except Fault α

namespace Value

/-- The fault of finding this value where one of another kind is due. Texts and numbers
are read to their end first, so one that cannot be held is malformed; of a list or
record nothing but its opening is looked at. -/
def fault : Value → Fault
  | .broken | .text none => .malformed
  | .number n => if n.isFinite then .mismatched else .malformed
  | _ => .mismatched

/-- Reads a text. -/
def asText : Value → Decoded String
  | .text (some s) => .ok s
  | v => .error v.fault

/-- Reads a truth value. -/
def asTruth : Value → Decoded Bool
  | .truth b => .ok b
  | v => .error v.fault

/-- Reads an integer between the bounds. -/
def asInt (low high : Int) : Value → Decoded Int
  | .number n =>
    match n.integer? with
    | some i => if low ≤ i && i ≤ high then .ok i else .error .mismatched
    | none => .error (Value.number n).fault
  | v => .error v.fault

/-- Reads a signed integer of 64 bits. -/
def asInt64 : Value → Decoded Int := asInt (-(Nat.pow 2 63 : Nat)) (Nat.pow 2 63 - 1 : Nat)

/-- Reads an unsigned integer of the given width. -/
def asNat (bits : Nat) (v : Value) : Decoded Nat :=
  (asInt 0 (Nat.pow 2 bits - 1 : Nat) v).map Int.toNat

/-- Reads null or a value. -/
def asOption {α : Type} (read : Value → Decoded α) : Value → Decoded (Option α)
  | .null => .ok none
  | v => (read v).map some

/-- Reads a list of values. -/
def asList {α : Type} (read : Value → Decoded α) : Value → Decoded (List α)
  | .list items => items.mapM read
  | v => .error v.fault

/-- Reads the name of a choice: a text, or a record whose only key is the name and
whose value is null. -/
def asChoice {α : Type} (choose : String → Decoded α) : Value → Decoded α
  | .text (some name) => choose name
  | .record [] => .error .malformed
  | .record ((key, v) :: more) => do
    let choice ← key.asText >>= choose
    match v with
    | .null => if more.isEmpty then .ok choice else .error .malformed
    | v => .error v.fault
  | _ => .error .malformed

end Value

/-- What the absence of a field means: nothing, a fault, or a fault only where fields
are given by position. -/
inductive Absence
  | allowed
  | refused
  | allowedByName
  deriving DecidableEq, Repr

/-- A field of a record: its name, what its absence means, and how its value is read
into the record. -/
structure Member (α : Type) where
  name : String
  absence : Absence := .allowed
  read : α → Value → Decoded α

namespace Member

variable {α β : Type}

/-- A field whose value `read` understands and `put` stores. -/
def of (name : String) (read : Value → Decoded β) (put : α → β → α)
    (absence : Absence := .allowed) : Member α :=
  { name, absence, read := fun record v => (read v).map (put record) }

/-- Reads the members of a record in order. Keys that name no field are skipped, though
their values must be well formed; a key that names a field `seen` before is a fault. -/
def readMembers (fields : List (Member α)) (seen : List String) (record : α) :
    List (Value × Value) → Decoded α
  | [] =>
    if fields.all fun f => f.absence != .refused || seen.contains f.name then .ok record
    else .error .mismatched
  | (.text (some key), v) :: rest =>
    match fields.find? fun f => f.name == key with
    | some field =>
      if seen.contains key then .error .mismatched
      else do
        let record ← field.read record v
        readMembers fields (key :: seen) record rest
    | none => if v.isWhole then readMembers fields seen record rest else .error .malformed
  | _ => .error .malformed

/-- Reads the fields from a list that gives them in order. -/
def readPositions (record : α) : List (Member α) → List Value → Decoded α
  | [], [] => .ok record
  | [], _ :: _ => .error .malformed
  | field :: fields, [] =>
    if field.absence == .allowed then readPositions record fields [] else .error .mismatched
  | field :: fields, v :: rest => do
    let record ← field.read record v
    readPositions record fields rest

end Member

/-- Reads a record with the given fields, starting from one that holds the defaults. -/
def Value.asRecord {α : Type} (defaults : α) (fields : List (Member α)) : Value → Decoded α
  | .record members => Member.readMembers fields [] defaults members
  | .list items => Member.readPositions defaults fields items
  | v => .error v.fault

/-- Reads a source that is one value. -/
def decodeSource {α : Type} (read : Value → Decoded α) (s : Source) : Decoded α := do
  let reading := readSource s
  let result ← read reading.value
  if reading.clean then .ok result else .error .malformed

/-- Reads a text that is one value. -/
def decodeText {α : Type} (read : Value → Decoded α) (s : String) : Decoded α :=
  decodeSource read (Source.ofString s)

end WaitingRoom.Json
