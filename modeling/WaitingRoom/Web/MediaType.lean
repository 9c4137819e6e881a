import WaitingRoom.Text.Ascii

/-!
# Media types

Whether the media type of a request says that its body is JSON: the type is
`application`, and the subtype or its suffix is `json`. Parameters may follow, and case
makes no difference.
-/

namespace WaitingRoom.Web

/-- The characters names in headers are made of. -/
def isTokenChar (c : Char) : Bool :=
  Text.isLetter c || Text.isDigit c || "!#$%&'*+-.^_`|~".toList.contains c

/-- Whether a quoted value, of which at least one character has been read, is closed, and
what follows it. -/
def closeQuote : List Char → Option (List Char)
  | [] => none
  | c :: rest => if c == '"' then some rest else if ' ' ≤ c then closeQuote rest else none

/-- What follows the value of a parameter, if there is a value: a token, or a text between
quotes with blanks behind it. -/
def skipValue (cs : List Char) : Option (List Char) :=
  match cs with
  | '"' :: c :: rest =>
    if ' ' ≤ c then (closeQuote rest).map (List.dropWhile (· == ' ')) else none
  | '"' :: [] => none
  | cs =>
    let rest := cs.dropWhile isTokenChar
    if rest.length == cs.length && !rest.isEmpty then none else some rest

/-- Whether parameters are well formed: each a name, an equals sign and a value, with
semicolons between them. At most `budget` of them are looked at. -/
def parametersFit : (budget : Nat) → List Char → Bool
  | 0, cs => cs.isEmpty
  | budget + 1, cs =>
    let cs := cs.dropWhile (· == ' ')
    if cs.isEmpty then true
    else if (cs.takeWhile isTokenChar).isEmpty then false
    else
      match cs.dropWhile isTokenChar with
      | '=' :: value =>
        match skipValue value with
        | some [] => true
        | some (';' :: more) => parametersFit budget more
        | _ => false
      | _ => false

/-- The subtype of a media type without its suffix, and the suffix: what stands behind the
last plus sign, unless that is the first character. -/
def cutSuffix (name : List Char) : List Char × Option (List Char) :=
  let suffix := (name.reverse.takeWhile (· != '+')).reverse
  let stem := name.take (name.length - suffix.length - 1)
  if stem.isEmpty then (name, none) else (stem, some suffix)

/-- Whether a media type is that of JSON. -/
def isJsonType (mediaType : String) : Bool :=
  let cs := mediaType.toList.map Char.toLower
  let kind := cs.takeWhile isTokenChar
  match cs.dropWhile isTokenChar with
  | '/' :: rest =>
    let name := rest.takeWhile isTokenChar
    let tail := rest.dropWhile isTokenChar
    let wellFormed := match tail with
      | [] => true
      | ';' :: parameters => !name.isEmpty && parametersFit parameters.length parameters
      | _ => false
    let (stem, suffix) := cutSuffix name
    let json := ['j', 's', 'o', 'n']
    wellFormed && String.ofList kind == "application" && (stem == json || suffix == some json)
  | _ => false

end WaitingRoom.Web
