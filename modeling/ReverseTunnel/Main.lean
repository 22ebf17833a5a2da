import ReverseTunnel.CommandLine.Arguments
import ReverseTunnel.CommandLine.Startup

/-!
The program on a machine.

`main` looks at the files that a start depends on, lets the library decide, makes the
files that it decides on, and reports the outcome. It opens no sockets: what is
listened on and who connects is for the program that embeds the library.
-/

namespace ReverseTunnel.Main

open CommandLine
open Disk (Entry Folders Place)

/-- A place as a path of the machine. -/
def pathOf : Place → String
  | "/" :: names => "/" ++ String.intercalate "/" names
  | names => String.intercalate "/" names

/-- What the machine has at a place. -/
def entryAt (place : Place) : IO (Option Entry) := do
  match ← (IO.FS.readBinFile (pathOf place)).toBaseIO with
  | .ok content => return some (.file content.data.toList)
  | .error (.inappropriateType ..) => return some .folder
  | .error _ => return none

/-- The places that a path goes through. -/
def placesOf (path : String) : List Place :=
  let step (seen : List Place × Place) (name : String) : List Place × Place :=
    let (places, here) := seen
    if name = "" || name = "." then (places, here)
    else if name = ".." then (places, Folders.outside here)
    else (places ++ [here ++ [name]], here ++ [name])
  ((Disk.Path.names path).foldl step ([], Folders.origin path)).1

/-- What the machine has along some paths, beside what is known already. -/
def survey (known : Folders) (paths : List String) : IO Folders := do
  let mut d := known
  for place in (paths.flatMap placesOf).eraseDups do
    if (d.entry? place).isNone then
      if let some e ← entryAt place then d := d.insert place e
  return d

/-- The paths on which the choice of a configuration file depends. -/
def candidates (flag : Option String) : List String :=
  match flag with
  | some path =>
    path :: Disk.Path.withExtension path "toml" ::
      Config.fileNames.map (Disk.Path.join path)
  | none => Config.standardPath :: Config.fileNames.map (Disk.Path.join ".")

/-- The paths on which the log depends. -/
def logPaths (d : Folders) (flag : Option String) : List String :=
  match (prepare flag none d).2 with
  | .ok l =>
    match Logging.outputOf l.settings.logging.output with
    | .file path => [path]
    | _ => []
  | .error _ => []

/-- Makes what has been added to the folders. -/
def makeAdded (known now : Folders) : IO Unit := do
  for (place, e) in now.entries.drop known.entries.length do
    match e with
    | .folder => IO.FS.createDir (pathOf place)
    | .file content => IO.FS.writeBinFile (pathOf place) (ByteArray.mk content.toArray)

/-- Every address can be listened on as far as the library can tell. -/
def anyAddress (_ : List Server.Bound) : Server.Binder := fun addr =>
  .ok ⟨Address.hostOf addr, 0⟩

/-- Starts the program, and gives the lines that it logs or the reason why it does not
start. -/
def start (flag filter : Option String) : IO (Except StartError (List Logging.Line)) := do
  let known ← survey {} (candidates flag)
  let known ← survey known (logPaths known flag)
  let (now, outcome) := prepare flag none known
  makeAdded known now
  return do
    let loaded ← outcome
    discard (loaded.start anyAddress)
    let level := loaded.settings.logging.level
    return loaded.lines.filter (Logging.isLetThrough (Logging.filterOf filter level))

def run (args : List String) : IO UInt32 := do
  match request? args (← IO.getEnv "TETHER_CONFIG") with
  | none =>
    IO.eprint ("error: unexpected arguments\n\n" ++ usageText)
    return 2
  | some .help => IO.print helpText; return 0
  | some .version => IO.print versionText; return 0
  | some (.run flag) =>
    match ← start flag (← IO.getEnv "RUST_LOG") with
    | .error e =>
      IO.eprintln ("Error: " ++ e.message)
      return 1
    | .ok lines =>
      for l in lines do IO.eprintln (l.level.name ++ " " ++ l.text)
      return 0

end ReverseTunnel.Main

def main (args : List String) : IO UInt32 := ReverseTunnel.Main.run args
