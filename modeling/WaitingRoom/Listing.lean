import WaitingRoom.Device
import WaitingRoom.Failure
import WaitingRoom.Text.Blank

/-!
# Listings

What a caller asks of a listing, the order it is in, and the page that answers.
-/

namespace WaitingRoom

open Json (Value Decoded Member)

/-- What a listing can be ordered by. -/
inductive SortKey
  | localId
  | name
  | createdAt
  | updatedAt
  deriving DecidableEq, Repr

namespace SortKey

/-- The name of a key. -/
def text : SortKey → String
  | localId => "local_id"
  | name => "name"
  | createdAt => "created_at"
  | updatedAt => "updated_at"

/-- All keys. -/
def all : List SortKey := [localId, name, createdAt, updatedAt]

/-- The key of a name. -/
def parse (s : String) : Except Failure SortKey :=
  match all.find? fun key => key.text == s with
  | some key => .ok key
  | none => .error (.invalidArgument ("unknown sort field '" ++ s ++ "'"))

end SortKey

/-- The order of a listing: a key, and whether the largest comes first. Records with
equal keys follow one another by ascending local id. -/
structure SortOrder where
  key : SortKey
  descending : Bool
  deriving DecidableEq, Repr

namespace SortOrder

/-- Cuts a text at its first dot; `none` if it has none. -/
def cutAtDot (done : List Char) : List Char → Option (String × String)
  | [] => none
  | c :: rest =>
    if c == '.' then some (String.ofList done.reverse, String.ofList rest)
    else cutAtDot (c :: done) rest

/-- Reads a key, optionally followed by a dot and the direction. -/
def parse (s : String) : Except Failure SortOrder :=
  match cutAtDot [] s.toList with
  | none => (SortKey.parse s).map (⟨·, false⟩)
  | some (key, "desc") => (SortKey.parse key).map (⟨·, true⟩)
  | some (key, "asc") => (SortKey.parse key).map (⟨·, false⟩)
  | some (_, direction) =>
    .error (.invalidArgument ("unknown sort direction '" ++ direction ++ "'"))

/-- The text of an order; ascending is not spelled out. -/
def render (o : SortOrder) : String :=
  if o.descending then o.key.text ++ ".desc" else o.key.text

end SortOrder

/-- What a caller asks of a listing: a window, an order, whether hidden records count,
and a text to search for. -/
structure ListOptions where
  limit : Int := 100
  offset : Int := 0
  sort : String := "local_id"
  showHidden : Bool := false
  search : String := ""
  deriving DecidableEq, Repr, Inhabited

namespace ListOptions

/-- The fields of list options in their order; each of them may be absent. -/
def fields : List (Member ListOptions) :=
  [.of "limit" Value.asInt64 fun o limit => { o with limit },
   .of "offset" Value.asInt64 fun o offset => { o with offset },
   .of "sort" Value.asText fun o sort => { o with sort },
   .of "show_hidden" Value.asTruth fun o showHidden => { o with showHidden },
   .of "search" Value.asText fun o search => { o with search }]

/-- Reads list options. -/
def ofJson : Value → Decoded ListOptions := Value.asRecord {} fields

/-- List options as a record. -/
def toJson (o : ListOptions) : Value :=
  .ofMembers
    [("limit", .ofInt o.limit), ("offset", .ofInt o.offset), ("sort", .ofString o.sort),
     ("show_hidden", .truth o.showHidden), ("search", .ofString o.search)]

/-- Reads a text that is list options. -/
def parse (s : String) : Decoded ListOptions := Json.decodeText ofJson s

/-- The order asked for, if the options make sense: neither limit nor offset may be
negative. -/
def order (o : ListOptions) : Except Failure SortOrder :=
  if o.limit < 0 then .error (.invalidArgument "limit must not be negative")
  else if o.offset < 0 then .error (.invalidArgument "offset must not be negative")
  else SortOrder.parse o.sort

/-- The text to search for, without the blanks around it, unless nothing is left. -/
def searchTerm (o : ListOptions) : Option String :=
  let term := Text.trim o.search
  if term.isEmpty then none else some term

end ListOptions

/-- The answer to a listing: how many records match, what was asked for, and the
records in the window. -/
structure DeviceList where
  total : Int
  limit : Int
  offset : Int
  sort : String
  search : String
  result : List Device
  deriving DecidableEq

namespace DeviceList

/-- A listing as a record; an empty search text is left out. -/
def toJson (l : DeviceList) : Value :=
  .ofMembers ([("total", .ofInt l.total), ("limit", .ofInt l.limit), ("offset", .ofInt l.offset),
    ("sort", .ofString l.sort)] ++
    (if l.search.isEmpty then [] else [("search", .ofString l.search)]) ++
    [("result", .list (l.result.map Device.toJson))])

end DeviceList

end WaitingRoom
