import ReverseTunnel.Disk.Folders
import ReverseTunnel.Text.Blank

/-!
Where log lines are written to, and making sure that it is there.
-/

namespace ReverseTunnel.Logging

/-- Where log lines are written to. -/
inductive Output where
  | stderr
  | stdout
  | discard
  /-- Behind what a file holds. -/
  | file (path : String)
  deriving DecidableEq, Repr

/-- The output that a configuration names. -/
def outputOf (configured : String) : Output :=
  match Text.trim configured with
  | "stderr" => .stderr
  | "stdout" => .stdout
  | "discard" => .discard
  | path => .file path

/-- Why there is no output. -/
inductive OutputError where
  | noFolder (path : String)
  | notOpened (path : String)
  deriving DecidableEq, Repr

def OutputError.message : OutputError → String
  | .noFolder path => "logging: mkdir " ++ path
  | .notOpened path => "logging: open " ++ path

/-- Makes sure of a file to write to and of the folders around it. -/
def openFile (path : String) (d : Disk.Folders) : Disk.Folders × Except OutputError Unit :=
  let parent := (Disk.Path.parent? path).getD ""
  match d.makeAll parent with
  | (d, some _) => (d, .error (.noFolder parent))
  | (d, none) =>
    match d.openFile path with
    | .ok d => (d, .ok ())
    | .error _ => (d, .error (.notOpened path))

/-- Makes sure of an output. -/
def Output.prepare (o : Output) (d : Disk.Folders) : Disk.Folders × Except OutputError Unit :=
  match o with
  | .file path => openFile path d
  | _ => (d, .ok ())

end ReverseTunnel.Logging
