import WaitingRoom.Backend
import WaitingRoom.Settings.Config
import WaitingRoom.Text.Blank
import WaitingRoom.Time.Span

/-!
# Settings

What a configuration comes to once its texts have been read. Some texts are only looked
at when a value is made of them, the first one that cannot be read decides.
-/

namespace WaitingRoom

/-- Where the databases are. -/
structure StoreSettings where
  mongoUrl : String
  mongoDatabase : String
  mongoCollection : String
  postgresConnStr : String
  deriving DecidableEq, Repr

/-- The settings a service runs with. A wait that could not be understood is kept aside:
the service runs without it. -/
structure Settings where
  apiPort : Nat
  backend : Backend
  store : StoreSettings
  deviceManagerUrl : String
  jwtPubRsaKey : Option String
  deleteAfterUseWait : Option Time.Span
  ignoredWait : Option String
  wsPingPeriod : Time.Span
  debug : Bool
  shutdownGraceSeconds : Nat
  migrate : Option Backend
  deriving DecidableEq, Repr

/-- Why there are no settings: a value is missing, a backend or the ping period cannot be
read, the ping period has no length, or a length of time is beyond all bounds. -/
inductive SettingsFailure
  | missing (name : String)
  | backend (failure : Failure)
  | pingPeriod
  | zeroPingPeriod
  | overflow
  deriving DecidableEq, Repr

/-- The words of a settings failure; an overflow is not reported in words. -/
def SettingsFailure.message : SettingsFailure → String
  | missing name => "Missing configuration value: " ++ name
  | backend failure => failure.message
  | pingPeriod => "Invalid ws_ping_period"
  | zeroPingPeriod => "ws_ping_period must be greater than zero"
  | overflow => ""

namespace Config

/-- A value that has to be there. -/
def required {α : Type} (value : Option α) (name : String) : Except SettingsFailure α :=
  match value with
  | some a => .ok a
  | none => .error (.missing name)

/-- Reads the name of a backend. -/
def readBackend (name : String) : Except SettingsFailure Backend :=
  (Backend.parse name).mapError .backend

/-- Reads the time between two pings, which must have a length. -/
def readPingPeriod (s : String) : Except SettingsFailure Time.Span :=
  match Time.Span.parse s with
  | .error .unreadable => .error .pingPeriod
  | .error .carryOverflow => .error .overflow
  | .ok period => if period.nanos = 0 then .error .zeroPingPeriod else .ok period

/-- Reads the wait before the second delete; one that cannot be read is ignored. -/
def readWait : Option String → Except SettingsFailure (Option Time.Span × Option String)
  | none => .ok (none, none)
  | some s =>
    match Time.Span.parseWait s with
    | .off => .ok (none, none)
    | .after wait => .ok (some wait, none)
    | .refused => .ok (none, some (Text.trim s))
    | .carryOverflow => .error .overflow

/-- The settings a configuration comes to. -/
def settings (c : Config) : Except SettingsFailure Settings := do
  let backend ← required c.dbImpl "db_impl" >>= readBackend
  let migrate ← c.migrate.mapM readBackend
  let wsPingPeriod ← required c.wsPingPeriod "ws_ping_period" >>= readPingPeriod
  let apiPort ← required c.apiPort "api_port"
  let deviceManagerUrl ← required c.deviceManagerUrl "device_manager_url"
  let (deleteAfterUseWait, ignoredWait) ← readWait c.deleteAfterUseWaitDuration
  return {
    apiPort, backend, migrate, wsPingPeriod, deviceManagerUrl, deleteAfterUseWait, ignoredWait
    store :=
      { mongoUrl := c.mongoUrl.getD ""
        mongoDatabase := c.mongoTable.getD ""
        mongoCollection := c.mongoDeviceCollection.getD ""
        postgresConnStr := c.postgresConnStr.getD "" }
    jwtPubRsaKey := c.jwtPubRsaKey.filter fun key => !Text.isAllBlank key
    debug := c.debug.getD false
    shutdownGraceSeconds := c.shutdownGraceSeconds.getD 10 }

end Config

end WaitingRoom
