import WaitingRoom.Program

/-!
# The command line of the waiting room

Gathers what the program finds where it is started, runs it there, and writes what is
left of the run. No database is in reach from here.
-/

namespace WaitingRoom.Program

/-- The variables that are set. -/
def readVariables : IO (List (String × String)) :=
  variableNames.filterMapM fun name => return (← IO.getEnv name).map (name, ·)

/-- The files among the given ones that can be read. -/
def readFiles (paths : List String) : IO Folder :=
  paths.filterMapM fun (path : String) => do
    try return some (path, ← IO.FS.readFile path)
    catch _ => return none

/-- The surroundings of a program that is started with these words. -/
def surroundings (words : List String) : IO Surroundings := do
  let bare : Surroundings := { words, environment := ← readVariables }
  return { bare with folder := ← readFiles (configPath? bare).toList }

/-- Writes the log file. -/
def writeLog (folder : String) (r : Report) : IO Unit := do
  IO.FS.createDirAll folder
  let lines := r.entries.map fun e => e.toJson.render ++ "\n"
  IO.FS.writeFile (folder ++ "/" ++ name ++ ".log") (String.join lines)

/-- Writes what is left of a run. -/
def publish (r : Report) : IO Unit := do
  r.consoleLines.forM IO.println
  match r.logFolder? with
  | some folder => writeLog folder r
  | none => pure ()
  match r.outcome with
  | .refused .help => CommandLine.choices.forM fun c => IO.println c.usage
  | .refused .version => IO.println name
  | .refused why => IO.eprintln ("error: " ++ why.message)
  | outcome =>
    match outcome.complaint? with
    | some complaint => IO.eprintln ("Error: " ++ complaint)
    | none => pure ()

end WaitingRoom.Program

/-- Runs the program with the words of its command line. -/
def main (words : List String) : IO UInt32 := do
  let r := WaitingRoom.Program.run (← WaitingRoom.Program.surroundings words)
  WaitingRoom.Program.publish r
  return UInt32.ofNat r.outcome.status
