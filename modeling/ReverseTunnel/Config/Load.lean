import ReverseTunnel.Config.Format
import ReverseTunnel.Config.Settings
import ReverseTunnel.Disk.Folders
import ReverseTunnel.Text.Utf8

/-!
From a file's content to the settings that it comes to.

Bytes that are no text are replaced before anything is read. A document that has not
the shape of a configuration file is one that cannot be read.
-/

namespace ReverseTunnel.Config

/-- Why no settings come out of a file. -/
inductive LoadError where
  | unreadable (path : String)
  | unsupported (extension : String)
  | malformed (format : Format) (path : String)
  | settings (error : SettingsError)
  deriving DecidableEq, Repr

def LoadError.message : LoadError → String
  | .unreadable path => "read " ++ path
  | .unsupported extension => "config: unsupported config extension " ++ extension
  | .malformed format path => "parse " ++ format.name ++ " " ++ path
  | .settings error => error.message

/-- The settings that the content of a file comes to. -/
def settingsOf (path : String) (content : Bytes) : Except LoadError Settings :=
  match Format.ofPath? path with
  | none => .error (.unsupported (Format.extensionOf path))
  | some format =>
    match format.parse? (Text.Utf8.lossy content) >>= File.ofValue? with
    | none => .error (.malformed format path)
    | some file => file.settings.mapError .settings

/-- The settings that the file at a path comes to. -/
def load (d : Disk.Folders) (path : String) : Except LoadError Settings :=
  match d.read path with
  | .error _ => .error (.unreadable path)
  | .ok content => settingsOf path content

end ReverseTunnel.Config
