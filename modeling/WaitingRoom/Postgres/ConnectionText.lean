import WaitingRoom.Text.Blank
import WaitingRoom.Text.Decimal
import WaitingRoom.Text.Percent

/-!
# Connection texts

Where a relational database is, as a text: either a locator that begins with the name of
the scheme, or a row of parameters such as `host=h dbname=d`. A text can be used if all
its parameters make sense and name a database.
-/

namespace WaitingRoom.Postgres.ConnectionText

/-- A parameter with its value. -/
abbrev Parameter := String × String

/-- The characters before the first that `ends` the part, and those from it on; `none` if
there is no such character. -/
def before? (ends : Char → Bool) (cs : List Char) : Option (List Char × List Char) :=
  let rest := cs.dropWhile fun c => !ends c
  if rest.isEmpty then none else some (cs.takeWhile fun c => !ends c, rest)

/-- The text that percent encoding spells, unless it is none. -/
def decode? (cs : List Char) : Option String := Text.decodeSegment? (String.ofList cs)

/-- The name of a host, or the path of its socket, which need not be text. -/
def host? (cs : List Char) : Option Parameter :=
  let bytes := Text.percentDecode (Text.utf8Bytes (String.ofList cs))
  if bytes.head? == some 0x2F then some ("host", "")
  else (Text.strictText? bytes).map fun name => ("host", name)

/-- A host with its port, as a locator has them. A host between brackets may hold colons. -/
def hostAndPort? (cs : List Char) : Option (List Parameter) := do
  let (host, port) ← (match cs with
    | '[' :: rest => do
      let (host, rest) ← before? (· == ']') rest
      match rest.drop 1 with
      | [] => some (host, none)
      | ':' :: port => some (host, some port)
      | _ => none
    | cs =>
      match before? (· == ':') cs with
      | some (host, rest) => some (host, some (rest.drop 1))
      | none => some (cs, none))
  let host ← host? host
  let port ← decode? (port.getD ['5', '4', '3', '2'])
  return [host, ("port", port)]

/-- The parameters behind the question mark of a locator. -/
def queryParameters? : (budget : Nat) → List Char → Option (List Parameter)
  | _, [] => some []
  | 0, _ => none
  | budget + 1, cs => do
    let (key, rest) ← before? (· == '=') cs
    let key ← decode? key
    let (value, rest) := (before? (· == '&') (rest.drop 1)).getD (rest.drop 1, [])
    let parameter ← if key == "host" then host? value else (decode? value).map (key, ·)
    return parameter :: (← queryParameters? budget (rest.drop 1))

/-- The parameters of a locator, without its scheme: who connects, to which hosts, to which
database, and anything else. -/
def locatorParameters? (cs : List Char) : Option (List Parameter) := do
  let (user, cs) ← (match before? (· == '@') cs with
    | some (who, rest) =>
      (decode? (who.takeWhile (· != ':'))).map fun user => ([("user", user)], rest.drop 1)
    | none => some ([], cs))
  let (hosts, cs) := (before? (fun c => c == '/' || c == '?') cs).getD (cs, [])
  let hosts ← if hosts.isEmpty then some [] else (Text.splitAt ',' hosts).mapM hostAndPort?
  let (path, cs) ← (match cs with
    | '/' :: rest =>
      let (name, rest) := (before? (· == '?') rest).getD (rest, [])
      if name.isEmpty then some ([], rest)
      else (decode? name).map fun name => ([("dbname", name)], rest)
    | cs => some ([], cs))
  let query ← queryParameters? cs.length (cs.drop 1)
  return user ++ hosts.flatten ++ path ++ query

/-- A value up to the next blank, or up to the closing quote if it is a quoted one. A
backslash takes the character after it as it is. -/
def valueOf? (quoted : Bool) (done : List Char) : List Char → Option (List Char × List Char)
  | [] => if quoted || done.isEmpty then none else some (done.reverse, [])
  | '\\' :: c :: rest => valueOf? quoted (c :: done) rest
  | ['\\'] => if quoted || done.isEmpty then none else some (done.reverse, [])
  | c :: rest =>
    if quoted && c == '\'' then some (done.reverse, rest)
    else if !quoted && Text.isBlank c then
      if done.isEmpty then none else some (done.reverse, c :: rest)
    else valueOf? quoted (c :: done) rest

/-- The parameters of a row of them. -/
def rowParameters? : (budget : Nat) → List Char → Option (List Parameter)
  | 0, _ => some []
  | budget + 1, cs =>
    let cs := Text.dropBlanks cs
    let isKey (c : Char) : Bool := !Text.isBlank c && c != '='
    let key := cs.takeWhile isKey
    if key.isEmpty then some []
    else
      match Text.dropBlanks (cs.dropWhile isKey) with
      | '=' :: rest => do
        let (value, rest) ← (match Text.dropBlanks rest with
          | '\'' :: rest => valueOf? true [] rest
          | rest => valueOf? false [] rest)
        return (String.ofList key, String.ofList value) :: (← rowParameters? budget rest)
      | _ => none

/-- The parameters of a connection text. -/
def parameters? (s : String) : Option (List Parameter) :=
  let cs := s.toList
  match ["postgres://", "postgresql://"].find? fun scheme => scheme.toList.isPrefixOf cs with
  | some scheme => locatorParameters? (cs.drop scheme.length)
  | none => rowParameters? (cs.length + 1) cs

/-- Whether a text is an address in numbers; one with colons is taken as it is. -/
def isAddress (s : String) : Bool :=
  s.toList.contains ':' ||
    (let parts := Text.splitAt '.' s.toList
     parts.length == 4 && parts.all fun p =>
       match Text.digitsOnly? p with
       | some n => n < 256 && (p.length == 1 || p.head? != some '0')
       | none => false)

/-- The parts of a list of values. -/
def listed (s : String) : List String := (Text.splitAt ',' s.toList).map String.ofList

/-- Whether a parameter is known and its value makes sense. -/
def makesSense : Parameter → Bool
  | ("user", _) | ("password", _) | ("dbname", _) | ("options", _)
  | ("application_name", _) | ("host", _) => true
  | ("hostaddr", value) => (listed value).all isAddress
  | ("port", value) => (listed value).all fun p => p.isEmpty || (Text.natural? 16 p).isSome
  | ("connect_timeout", value) | ("tcp_user_timeout", value) | ("keepalives_idle", value)
  | ("keepalives_interval", value) => (Text.int64? value).isSome
  | ("keepalives", value) => (Text.natural? 64 value).isSome
  | ("keepalives_retries", value) => (Text.natural? 32 value).isSome
  | ("sslmode", value) | ("channel_binding", value) =>
    ["disable", "prefer", "require"].contains value
  | ("sslnegotiation", value) => ["postgres", "direct"].contains value
  | ("target_session_attrs", value) => ["any", "read-write", "read-only"].contains value
  | ("load_balance_hosts", value) => ["disable", "random"].contains value
  | _ => false

/-- Whether a connection text can be used. -/
def isUsable (s : String) : Bool :=
  match parameters? s with
  | some parameters =>
    parameters.all makesSense && ((parameters.reverse.lookup "dbname").getD "") != ""
  | none => false

end WaitingRoom.Postgres.ConnectionText
