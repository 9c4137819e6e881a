import WaitingRoom.Text.Percent

/-!
# The working folder

The files a program finds under the paths it is given. Paths are read from the working
folder on, unless they begin at the root.
-/

namespace WaitingRoom

/-- The files of a working folder, by their paths. -/
abbrev Folder := List (String × String)

/-- What is found at a path. -/
inductive Finding
  | nothing
  | folder
  | file (content : String)
  deriving DecidableEq, Repr

namespace Folder

/-- The steps of a path; the first one of a path from the root is the root. -/
def steps (path : String) : List String :=
  let parts := (Text.splitAt '/' path.toList).map String.ofList
  (if path.startsWith "/" then ["/"] else []) ++ parts.filter fun p => !p.isEmpty

/-- Takes one step: a dot stays, two dots lead back, out of the working folder if need
be. -/
def enter (place : List String) (step : String) : List String :=
  if step == "." then place
  else if step != ".." then place ++ [step]
  else if place == ["/"] then place
  else if place.all (· == "..") then place ++ [".."]
  else place.dropLast

/-- The place a path leads to. -/
def place (path : String) : List String := (steps path).foldl enter []

/-- What is found at a place: folders are there for the files in them. -/
def at? (f : Folder) (there : List String) : Finding :=
  match f.find? fun (path, _) => place path == there with
  | some (_, content) => .file content
  | none =>
    if there.all (· == "..") || there == ["/"] ||
        f.any (fun (path, _) => there.isPrefixOf (place path)) then .folder
    else .nothing

/-- Walks on from a place. There is nothing behind a file. -/
def walk (f : Folder) (there : List String) : List String → Finding
  | [] => f.at? there
  | step :: rest =>
    match f.at? there with
    | .folder => f.walk (enter there step) rest
    | _ => .nothing

/-- What is found at a path. A path that ends in a slash leads to no file. -/
def find (f : Folder) (path : String) : Finding :=
  if path.isEmpty then .nothing
  else
    match f.walk [] (steps path) with
    | .file content => if path.endsWith "/" then .nothing else .file content
    | finding => finding

/-- Why a folder cannot be made: a file is in its place, or in the place of a folder it
would be in, or a name is too long or has a character that no name has. -/
inductive Obstacle
  | fileExists
  | notAFolder
  | nameTooLong
  | noName
  deriving DecidableEq, Repr

/-- The words of an obstacle. -/
def Obstacle.message : Obstacle → String
  | fileExists => "File exists (os error 17)"
  | notAFolder => "Not a directory (os error 20)"
  | nameTooLong => "File name too long (os error 36)"
  | noName => "file name contained an unexpected NUL byte"

/-- The bytes a name may have. -/
def longestName : Nat := 255

/-- Makes the folders that the steps lead through, where they are not there. -/
def makeFrom (f : Folder) (there : List String) : List String → Except Obstacle Unit
  | [] => .ok ()
  | step :: rest =>
    let next := enter there step
    match f.at? next with
    | .file _ => .error (if rest.isEmpty then .fileExists else .notAFolder)
    | _ => if longestName < step.utf8ByteSize then .error .nameTooLong else f.makeFrom next rest

/-- Makes a folder and those it is in. -/
def make (f : Folder) (path : String) : Except Obstacle Unit :=
  if path.toList.contains '\x00' then .error .noName else f.makeFrom [] (steps path)

end Folder

end WaitingRoom
