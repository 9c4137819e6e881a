import WaitingRoom.Json.Decode
import WaitingRoom.Json.Render
import WaitingRoom.Time.Stamp

/-!
# Values of a document database

The values documents are made of, and their form as JSON, in which dates are records with
the single key `$date`. A date is a whole number of milliseconds since 1970; dates from
1970 to 9999 are written as time stamps.
-/

namespace WaitingRoom.Mongo

open Time (Instant)

/-- A value of a document. Values of kinds that no record has are not told apart. -/
inductive Value
  | null
  | truth (value : Bool)
  | integer (value : Int)
  | text (content : String)
  | date (millis : Int)
  | list (items : List Value)
  | record (members : List (String × Value))
  | other
  deriving Inhabited

/-- The last millisecond of the year 9999. -/
def lastWrittenMilli : Int := 253402300799999

/-- The milliseconds of a second as a fraction without zeros at the end. -/
def milliChars (millis : Nat) : List Char :=
  if millis == 0 then []
  else '.' :: ((Text.paddedDigits 3 millis).reverse.dropWhile (· == '0')).reverse

/-- The time stamp of a date. -/
def dateText (millis : Int) : String :=
  String.ofList (Time.Stamp.wholeChars (Instant.ofMillis millis) ++
    milliChars (millis % 1000).toNat ++ ['Z'])

/-- A record with a single key. -/
def single (key : String) (v : Json.Value) : Json.Value := Json.Value.ofMembers [(key, v)]

namespace Value

mutual

/-- A value as JSON. -/
def toJson : Value → Json.Value
  | null | other => .null
  | truth value => .truth value
  | integer value => .ofInt value
  | text content => .ofString content
  | date millis =>
    single "$date"
      (if 0 ≤ millis && millis ≤ lastWrittenMilli then .ofString (dateText millis)
       else single "$numberLong" (.ofString (Text.ofInt millis)))
  | list items => .list (itemsToJson items)
  | record members => .record (membersToJson members)

/-- The items of a list as JSON. -/
def itemsToJson : List Value → List Json.Value
  | [] => []
  | v :: rest => v.toJson :: itemsToJson rest

/-- The members of a record as JSON. -/
def membersToJson : List (String × Value) → List (Json.Value × Json.Value)
  | [] => []
  | (key, v) :: rest => (.ofString key, v.toJson) :: membersToJson rest

end

/-- The text of a value. -/
def render (v : Value) : String := v.toJson.render

/-- The date that the value of a `$date` key stands for. -/
def dateOf : Json.Value → Value
  | .text (some s) =>
    match Time.Stamp.parse? s with
    | some t => .date t.toMillis
    | none => .other
  | .number n => (n.integer?.map Value.date).getD .other
  | .record [(.text (some "$numberLong"), .text (some s))] =>
    ((Text.integer? s).map Value.date).getD .other
  | _ => .other

mutual

/-- The value that is written as JSON. Records whose only key is that of a kind no record
has are left as records. -/
def ofJson : Json.Value → Value
  | .null => .null
  | .truth b => .truth b
  | .number n => (n.integer?.map Value.integer).getD .other
  | .text (some s) => .text s
  | .list items => .list (itemsOfJson items)
  | .record [(.text (some "$date"), v)] => dateOf v
  | .record members => .record (membersOfJson members)
  | _ => .other

/-- The items of a list that is written as JSON. -/
def itemsOfJson : List Json.Value → List Value
  | [] => []
  | v :: rest => ofJson v :: itemsOfJson rest

/-- The members of a record that is written as JSON. -/
def membersOfJson : List (Json.Value × Json.Value) → List (String × Value)
  | [] => []
  | (key, v) :: rest => ((key.asText.toOption).getD "", ofJson v) :: membersOfJson rest

end

end Value

end WaitingRoom.Mongo
