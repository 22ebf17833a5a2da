import ReverseTunnel.Config.Format
import ReverseTunnel.Disk.Folders
import ReverseTunnel.Text.Quoted
import ReverseTunnel.Text.Utf8

/-!
Which file is the configuration file, and making sure that it is there.

A path that is asked for comes before the one of the environment, that before a file
in the working folder, and that before the standard path. `ensure` writes a file only
where there is nothing, and leaves every file that is there as it is.
-/

namespace ReverseTunnel.Config

open Disk (Folders)

/-- Who says where the file is. -/
inductive Source where
  | flag
  | env
  | cwd
  | default
  deriving DecidableEq, Repr

def Source.name : Source → String
  | flag => "flag"
  | env => "env"
  | cwd => "cwd"
  | default => "default"

/-- Why the file cannot be found or made. -/
inductive LocateError where
  | emptyPath
  | notFile (path : String)
  | unreachable (path : String)
  | unsupported (extension : Option String)
  | noFolder (path : String)
  | notCreated (path : String)
  deriving DecidableEq, Repr

/-- An extension in quotes, or that there is none. -/
def quotedExtension : Option String → String
  | some e => "Some(" ++ Text.Quoted.encodeName e ++ ")"
  | none => "None"

def LocateError.message : LocateError → String
  | .emptyPath => "config: empty config path"
  | .notFile path => "config: " ++ path ++ " exists but is not a regular file"
  | .unreachable path => "config: stat " ++ path
  | .unsupported extension =>
    "config: unsupported config extension " ++ quotedExtension extension ++
      " (expected .toml or .yaml/.yml)"
  | .noFolder path => "config: mkdir " ++ path
  | .notCreated path => "config: create " ++ path

/-- The names that a configuration file may have in a folder, the preferred ones
first. -/
def fileNames : List String := ["tether.toml", "tether.yaml", "tether.yml"]

/-- The path of the file where nothing says otherwise. -/
def standardPath : String := "/etc/tether/tether.toml"

/-- The configuration file in a folder. -/
def discover? (d : Folders) (folder : String) : Option String :=
  (fileNames.map (Disk.Path.join folder)).find? d.isFile

/-- The file that a path asks for: in a folder the one that is there or is to be made
there, and one that is missing has an extension. -/
def explicitPath (d : Folders) (path : String) : Except LocateError String :=
  if path = "" then .error .emptyPath
  else
    match d.find path with
    | .ok .folder => .ok ((discover? d path).getD (Disk.Path.join path "tether.toml"))
    | .ok (.file _) => .ok path
    | .error _ =>
      .ok (if (Disk.Path.extension? path).isNone then Disk.Path.withExtension path "toml"
        else path)

/-- Where the configuration file is, and who says so. -/
def resolve (d : Folders) (flag env : Option String) : Except LocateError (String × Source) :=
  -- an empty variable counts as one that is not set
  match flag, env.filter (· ≠ "") with
  | some path, _ => (explicitPath d path).map (·, .flag)
  | none, some path => (explicitPath d path).map (·, .env)
  | none, none =>
    match discover? d "." with
    | some path => .ok (path, .cwd)
    | none => .ok (standardPath, .default)

/-- Writes the file of a format where there is none, and the folders around it. -/
def create (path : String) (format : Format) (d : Folders) :
    Folders × Except LocateError Unit :=
  let parent := (Disk.Path.parent? path).getD ""
  match d.makeAll parent with
  | (d, some _) => (d, .error (.noFolder parent))
  | (d, none) =>
    match d.create path (Text.Utf8.encode format.template) with
    | .ok d => (d, .ok ())
    | .error _ => (d, .error (.notCreated path))

/-- Makes sure that there is a file at a path, and says whether it was made. -/
def ensure (path : String) (d : Folders) : Folders × Except LocateError Bool :=
  if path = "" then (d, .error .emptyPath)
  else
    match d.find path with
    | .ok (.file _) => (d, .ok false)
    | .ok .folder => (d, .error (.notFile path))
    | .error .refused => (d, .error (.unreachable path))
    | .error .missing =>
      -- the format is settled before anything is made
      match Format.ofPath? path with
      | none => (d, .error (.unsupported (Disk.Path.extension? path)))
      | some format =>
        let (d, made) := create path format d
        (d, made.map fun _ => true)

end ReverseTunnel.Config
