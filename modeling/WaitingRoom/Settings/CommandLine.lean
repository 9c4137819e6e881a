import WaitingRoom.Settings.Config
import WaitingRoom.Text.Decimal

/-!
# The command line

Options are given as `--name value` or `--name=value`, each at most once. Where an option
is not given, the variable that belongs to it is looked at. An option that stands apart
from its value is taken up when the next option begins or the line ends, so a word that is
no option at all is complained about before the value in front of it is looked at.
-/

namespace WaitingRoom.CommandLine

/-- Why a command line is not taken: it asks for help or for the version, has a word that
means nothing, gives an option twice, or a value is missing, none of those possible,
unreadable, or one too many. -/
inductive Refusal
  | help
  | version
  | unknownArgument
  | argumentConflict
  | invalidValue
  | valueValidation
  | tooManyValues
  deriving DecidableEq, Repr

/-- The words of a refusal. -/
def Refusal.message : Refusal → String
  | help => "help is asked for"
  | version => "the version is asked for"
  | unknownArgument => "unexpected argument"
  | argumentConflict => "an option is given twice"
  | invalidValue => "a value is missing or not possible"
  | valueValidation => "a value cannot be read"
  | tooManyValues => "a value is given to an option that has none"

/-- An option: its name, the variable that stands in for it, if any, and how its value is
put into a configuration. -/
structure Choice where
  name : String
  variableName : Option String := none
  put : Config → String → Except Refusal Config

/-- Reads any text. -/
def text (s : String) : Except Refusal String := .ok s

/-- Reads a path, which is never empty. -/
def path (s : String) : Except Refusal String :=
  if s.isEmpty then .error .invalidValue else .ok s

/-- Reads a truth value. -/
def truth (s : String) : Except Refusal Bool :=
  if s == "true" then .ok true else if s == "false" then .ok false else .error .invalidValue

/-- Reads the number of a port. -/
def port (s : String) : Except Refusal Nat :=
  match Text.int64? s with
  | some n => if 0 ≤ n && n < 65536 then .ok n.toNat else .error .valueValidation
  | none => .error .valueValidation

/-- Reads a number of seconds. -/
def seconds (s : String) : Except Refusal Nat :=
  match Text.natural? 64 s with
  | some n => .ok n
  | none => .error .valueValidation

/-- An option whose value `read` understands. -/
def choice {β : Type} (name : String) (variableName : Option String)
    (read : String → Except Refusal β) (put : Config → Option β → Config) : Choice where
  name
  variableName
  put c s := (read s).map fun b => put c (some b)

/-- All options, in the order in which their variables are looked at. -/
def choices : List Choice :=
  [choice "config-path" (some "WAITROOM_CONFIG_PATH") path
     fun c configPath => { c with configPath },
   choice "migrate" none text fun c migrate => { c with migrate },
   choice "api-port" (some "WAITROOM_API_PORT") port fun c apiPort => { c with apiPort },
   choice "db-impl" (some "WAITROOM_DB_IMPL") text fun c dbImpl => { c with dbImpl },
   choice "mongo-url" (some "WAITROOM_MONGO_URL") text fun c mongoUrl => { c with mongoUrl },
   choice "mongo-table" (some "WAITROOM_MONGO_TABLE") text
     fun c mongoTable => { c with mongoTable },
   choice "mongo-device-collection" (some "WAITROOM_MONGO_DEVICE_COLLECTION") text
     fun c mongoDeviceCollection => { c with mongoDeviceCollection },
   choice "postgres-conn-str" (some "WAITROOM_POSTGRES_CONN_STR") text
     fun c postgresConnStr => { c with postgresConnStr },
   choice "device-manager-url" (some "WAITROOM_DEVICE_MANAGER_URL") text
     fun c deviceManagerUrl => { c with deviceManagerUrl },
   choice "jwt-pub-rsa-key" (some "WAITROOM_JWT_PUB_RSA_KEY") text
     fun c jwtPubRsaKey => { c with jwtPubRsaKey },
   choice "delete-after-use-wait-duration" (some "WAITROOM_DELETE_AFTER_USE_WAIT_DURATION") text
     fun c deleteAfterUseWaitDuration => { c with deleteAfterUseWaitDuration },
   choice "ws-ping-period" (some "WAITROOM_WS_PING_PERIOD") text
     fun c wsPingPeriod => { c with wsPingPeriod },
   choice "debug" (some "WAITROOM_DEBUG") truth fun c debug => { c with debug },
   choice "log-level" (some "WAITROOM_LOG_LEVEL") text fun c logLevel => { c with logLevel },
   choice "log-dir" (some "WAITROOM_LOG_DIR") path fun c logDir => { c with logDir },
   choice "log-json" (some "WAITROOM_LOG_JSON") truth fun c logJson => { c with logJson },
   choice "shutdown-grace-seconds" (some "WAITROOM_SHUTDOWN_GRACE_SECONDS") seconds
     fun c shutdownGraceSeconds => { c with shutdownGraceSeconds }]

/-- How a choice is written on a command line. -/
def Choice.usage (c : Choice) : String :=
  "--" ++ c.name ++ " <VALUE>" ++
    match c.variableName with
    | some name => " [variable: " ++ name ++ "]"
    | none => ""

/-- How far a command line has been read: the configuration, the options given so far, and
the option whose value has not been taken up yet, with that value once it is there. -/
structure Reading where
  config : Config := {}
  given : List String := []
  awaiting : Option (Choice × Option String) := none

namespace Reading

/-- Takes up the value of an option, which must not have been given before. -/
def take (r : Reading) (c : Choice) (value : String) : Except Refusal Reading :=
  if r.given.contains c.name then .error .argumentConflict
  else do
    let config ← c.put r.config value
    return { config, given := c.name :: r.given }

/-- Takes up the option whose value stands apart, if there is one. -/
def settle (r : Reading) : Except Refusal Reading :=
  match r.awaiting with
  | none => .ok r
  | some (c, some value) => { r with awaiting := none }.take c value
  | some (_, none) => .error .invalidValue

/-- Takes up the variables of the options that were not given. -/
def fillFrom (found : String → Option String) (r : Reading) :
    List Choice → Except Refusal Reading
  | [] => .ok r
  | c :: rest =>
    match c.variableName.bind found with
    | none => r.fillFrom found rest
    | some value =>
      if r.given.contains c.name then r.fillFrom found rest
      else do
        let r ← r.take c value
        r.fillFrom found rest

end Reading

/-- Cuts a text at the first equals sign. -/
def cutAtEquals (done : List Char) : List Char → String × Option String
  | [] => (String.ofList done.reverse, none)
  | c :: rest =>
    if c == '=' then (String.ofList done.reverse, some (String.ofList rest))
    else cutAtEquals (c :: done) rest

/-- What an option that stands alone asks for. -/
def request? (name : String) : Option Refusal :=
  if name == "help" then some .help else if name == "version" then some .version else none

/-- Reads a word that begins with two dashes. -/
def readLong (r : Reading) (word : List Char) : Except Refusal Reading :=
  let (name, attached) := cutAtEquals [] word
  match choices.find? fun c => c.name == name with
  | some c => do
    let r ← r.settle
    match attached with
    | some value => r.take c value
    | none => return { r with awaiting := some (c, none) }
  | none =>
    match request? name with
    | none => .error .unknownArgument
    | some refusal =>
      if attached.isSome then .error .tooManyValues
      else do
        let _ ← r.settle
        .error refusal

/-- Reads a word that begins with one dash. -/
def readShort (r : Reading) (letter : Char) : Except Refusal Reading :=
  if letter == 'h' then do
    let _ ← r.settle
    .error .help
  else if letter == 'V' then do
    let _ ← r.settle
    .error .version
  else .error .unknownArgument

/-- Reads the words of a command line. A lone pair of dashes ends the options. -/
def readWords (r : Reading) : List String → Except Refusal Reading
  | [] => r.settle
  | word :: rest =>
    match word.toList with
    | ['-', '-'] => if rest.isEmpty then r.settle else .error .unknownArgument
    | '-' :: '-' :: long => do
      let r ← readLong r long
      readWords r rest
    | '-' :: letter :: _ => do
      let r ← readShort r letter
      readWords r rest
    | _ =>
      match r.awaiting with
      | some (c, none) => readWords { r with awaiting := some (c, some word) } rest
      | _ => .error .unknownArgument

/-- Reads a command line, with the variables that stand in for options. -/
def parse (found : String → Option String) (words : List String) : Except Refusal Config := do
  let r ← readWords {} words
  let r ← r.fillFrom found choices
  return r.config

end WaitingRoom.CommandLine
