import WaitingRoom.Settings.Config
import WaitingRoom.Settings.Folder

/-!
# Loading a configuration

The defaults, a file and the command line are laid over one another. Which file is read
is the command line's decision; a file that is not there is passed over, one that cannot
be read is not.
-/

namespace WaitingRoom

/-- Why a configuration file cannot be loaded: it cannot be read, or makes no sense. -/
inductive LoadFailure
  | unreadable (path : String)
  | malformed (path : String)
  deriving DecidableEq, Repr

/-- The words of a load failure. -/
def LoadFailure.message : LoadFailure → String
  | unreadable path => "Failed to read config file " ++ path
  | malformed path => "Failed to parse config file " ++ path

namespace Config

/-- The file that is read unless another one is named. -/
def defaultPath : String := "config.json"

/-- Reads a configuration file; one that is not there says nothing. -/
def readFile (folder : Folder) (path : String) : Except LoadFailure (Option Config) :=
  match folder.find path with
  | .nothing => .ok none
  | .folder => .error (.unreadable path)
  | .file content =>
    match parse content with
    | .ok c => .ok (some c)
    | .error _ => .error (.malformed path)

/-- Lays the file over the defaults, and the command line over both. -/
def load (folder : Folder) (commandLine : Config) : Except LoadFailure Config := do
  let file ← readFile folder (commandLine.configPath.getD defaultPath)
  return (defaults.merge (file.getD empty)).merge commandLine

end Config

end WaitingRoom
