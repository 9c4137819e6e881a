import WaitingRoom.Listing
import WaitingRoom.Text.Decimal
import WaitingRoom.Text.Percent

/-!
# Queries

List options as the query of a request spells them: numbers in decimal digits, truth
values as words. A key that is known may be given once; all other keys are ignored.
-/

namespace WaitingRoom.Web

/-- Reads a truth value from its word. -/
def truth? (s : String) : Option Bool :=
  if s == "true" then some true else if s == "false" then some false else none

/-- Takes up one key and value. -/
def takeOption (key value : String) (o : ListOptions) : Option ListOptions :=
  match key with
  | "limit" => (Text.int64? value).map fun limit => { o with limit }
  | "offset" => (Text.int64? value).map fun offset => { o with offset }
  | "sort" => some { o with sort := value }
  | "show_hidden" => (truth? value).map fun showHidden => { o with showHidden }
  | "search" => some { o with search := value }
  | _ => some o

/-- The keys that are known. -/
def knownKeys : List String := ["limit", "offset", "sort", "show_hidden", "search"]

/-- Takes up keys and values in order, where `seen` holds the known keys before them. -/
def takeOptions (seen : List String) (o : ListOptions) :
    List (String × String) → Option ListOptions
  | [] => some o
  | (key, value) :: rest =>
    if knownKeys.contains key then
      if seen.contains key then none
      else (takeOption key value o).bind fun o => takeOptions (key :: seen) o rest
    else takeOptions seen o rest

/-- The list options a query spells. -/
def listOptions? (query : String) : Option ListOptions :=
  takeOptions [] {} (Text.formPairs query)

end WaitingRoom.Web
