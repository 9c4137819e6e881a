import WaitingRoom.Credential.Jwt
import WaitingRoom.Logging.Filter
import WaitingRoom.Migration
import WaitingRoom.Settings.CommandLine
import WaitingRoom.Settings.Load
import WaitingRoom.Text.Quoted

/-!
# The program

What happens from the start of the program to its end: the configuration is loaded,
logging set up, and settings are made; then a migration is run, or the service until it
is told to stop. Each step has to succeed before the next one begins.
-/

namespace WaitingRoom

open Logging (Entry Level Filter)

/-- What a program finds where it is started: its words, its variables, the files of its
folder, the databases in reach, and the ports that are taken. -/
structure Surroundings where
  words : List String := []
  environment : List (String × String) := []
  folder : Folder := []
  network : Network := Network.deserted
  takenPorts : List Nat := []

/-- How a program came to its end: its command line was refused, its configuration could
not be loaded, the level of its log was refused, the folder of its log could not be made,
there were no settings, the migration failed or ran out of offsets, the database could not
be connected to, the key was refused, the port was taken, or all went well. -/
inductive Outcome
  | refused (why : CommandLine.Refusal)
  | unloadable (why : LoadFailure)
  | unfilterable (level : String)
  | unloggable (why : Folder.Obstacle)
  | unsettled (why : SettingsFailure)
  | unmigrated (why : MigrationFailure)
  | overrun
  | unconnected (backend : Backend) (why : Failure)
  | keyRefused (why : AuthFailure)
  | portTaken
  | fine
  deriving DecidableEq

namespace Outcome

/-- The status a program ends with. -/
def status : Outcome → Nat
  | refused .help | refused .version => 0
  | refused _ => 2
  | unsettled .overflow | overrun => 101
  | fine => 0
  | _ => 1

/-- What a program complains about when it ends. -/
def complaint? : Outcome → Option String
  | refused _ | unsettled .overflow | overrun | fine => none
  | unloadable why => some why.message
  | unfilterable level => some (Logging.refusedLevel level)
  | unloggable why => some why.message
  | unsettled why => some why.message
  | unmigrated why => some why.message
  | unconnected backend _ => some ("Failed to connect storage backend '" ++ backend.name ++ "'")
  | keyRefused why => some why.message
  | portTaken => some "API server failed"

end Outcome

/-- How a program logs: which entries, whether as JSON on the console, and in which folder
as well, if any. -/
structure LogSetup where
  filter : Filter
  json : Bool
  folder : Option String
  deriving DecidableEq, Repr

/-- What is left of a run of the program: how it ended, its journal, and how it logged, if
it came to that. -/
structure Report where
  outcome : Outcome
  journal : Journal := {}
  setup : Option LogSetup := none

namespace Report

/-- The entries that were let through, in order. -/
def entries (r : Report) : List Entry :=
  match r.setup with
  | some setup => r.journal.entries.reverse.filter setup.filter.admits
  | none => []

/-- The entries written to the console as JSON. -/
def consoleEntries (r : Report) : List Entry :=
  if r.setup.any (·.json) then r.entries else []

/-- The lines written to the console. -/
def consoleLines (r : Report) : List String :=
  let json := r.setup.any (·.json)
  r.entries.map fun e => if json then e.toJson.render else e.line

/-- The folder with the log file, if there is one; its entries are those let through. -/
def logFolder? (r : Report) : Option String := r.setup.bind (·.folder)

end Report

namespace Program

/-- The name of the program, which its log files begin with. -/
def name : String := "device-waiting-room"

/-- The variable whose filter goes before the configured level. -/
def filterVariable : String := "RUST_LOG"

/-- All variables a program looks at. -/
def variableNames : List String :=
  filterVariable :: CommandLine.choices.filterMap (·.variableName)

/-- The configuration file a program reads, if its command line is taken. -/
def configPath? (s : Surroundings) : Option String :=
  match CommandLine.parse (fun name => s.environment.lookup name) s.words with
  | .ok c => some (c.configPath.getD Config.defaultPath)
  | .error _ => none

/-- How a configuration wants to log. -/
def logSetup (s : Surroundings) (c : Config) : Except Outcome LogSetup :=
  let level := c.logLevel.getD "info"
  match Filter.choose? (s.environment.lookup filterVariable) level with
  | none => .error (.unfilterable level)
  | some filter =>
    let setup : LogSetup := { filter, json := c.logJson.getD false, folder := c.logDir }
    match c.logDir with
    | none => .ok setup
    | some path =>
      match s.folder.make path with
      | .ok () => .ok setup
      | .error why => .error (.unloggable why)

/-- What is logged once logging is set up. -/
def setupEntry (c : Config) : Entry where
  level := .info
  target := "waitroom_server::logger"
  message := "Logging initialized"
  details := [("level", .ofString (c.logLevel.getD "info")),
    ("dir", .ofString (Text.shownOption c.logDir))]

/-- What is logged about a wait that cannot be understood. -/
def ignoredWaitEntry (value : String) : Entry where
  level := .warn
  target := "waitroom_core::controller::cleanup"
  message := "Ignoring invalid delete-after-use wait duration: *"
  details := [("value", .ofString value)]

/-- What the program itself logs. -/
def entry (level : Level) (message : String) (details : List (String × Json.Value) := []) :
    Entry :=
  ⟨level, "device_waiting_room", message, details⟩

/-- What is logged when the service begins to listen. -/
def listeningEntry (port : Nat) : Entry where
  level := .info
  target := "waitroom_server::app"
  message := "Device waiting room listening on http://0.0.0.0:" ++ Text.ofNat port

/-- Runs the service until it is told to stop. -/
def serve (s : Surroundings) (settings : Settings) (j : Journal) : Outcome × Journal :=
  match settings.backend.connect s.network settings.store j with
  | (.error why, j) => (.unconnected settings.backend why, j)
  | (.ok archive, j) =>
    let j := j.log (entry .info "Storage ready" [("backend", .ofString archive.backend.name)])
    match Jwt.Checker.ofSetting settings.jwtPubRsaKey with
    | .error why => (.keyRefused why, j)
    | .ok _ =>
      let j :=
        if settings.jwtPubRsaKey.isSome then j
        else j.log (entry .warn
          "No JWT public key configured; websocket tokens are not signature-checked")
      let j := j.log (listeningEntry settings.apiPort)
      if s.takenPorts.contains settings.apiPort then
        (.portTaken, (archive.close j).log
          (entry .error "Server stopped with error: Address already in use (os error 98)"))
      else
        let j := j.log
          (entry .warn "Shutdown signal received. Closing server gracefully...")
        (.fine, (archive.close j).log (entry .info "Shutdown complete"))

/-- Does what the settings ask for. -/
def work (s : Surroundings) (settings : Settings) (j : Journal) : Outcome × Journal :=
  let j := match settings.ignoredWait with
    | some value => j.log (ignoredWaitEntry value)
    | none => j
  match settings.migrate with
  | none => serve s settings j
  | some target =>
    match Migration.run s.network settings.store settings.backend target j with
    | (some (.ok _), j) => (.fine, j)
    | (some (.error why), j) => (.unmigrated why, j)
    | (none, j) => (.overrun, j)

/-- Loads the configuration. -/
def configure (s : Surroundings) : Except Outcome Config :=
  match CommandLine.parse (fun name => s.environment.lookup name) s.words with
  | .error why => .error (.refused why)
  | .ok commandLine =>
    match Config.load s.folder commandLine with
    | .error why => .error (.unloadable why)
    | .ok c => .ok c

/-- Runs the program. -/
def run (s : Surroundings) : Report :=
  match configure s with
  | .error outcome => { outcome }
  | .ok c =>
    match logSetup s c with
    | .error outcome => { outcome }
    | .ok setup =>
      let j := ({} : Journal).log (setupEntry c)
      match c.settings with
      | .error why => { outcome := .unsettled why, journal := j, setup := some setup }
      | .ok settings =>
        let (outcome, j) := work s settings j
        { outcome, journal := j, setup := some setup }

end Program

end WaitingRoom
