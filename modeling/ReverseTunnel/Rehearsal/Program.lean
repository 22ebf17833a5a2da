import ReverseTunnel.CommandLine.Arguments
import ReverseTunnel.CommandLine.Startup
import ReverseTunnel.Rehearsal.Ports

/-!
The rehearsal of the program as a whole: it is started in a folder and, if it starts,
told to stop after a while.

There is no network: nobody comes to what is listened on, and a client cannot connect.
-/

namespace ReverseTunnel.Rehearsal.Program

open CommandLine
open Disk (Folders)
open Logging (Line)

/-- What is left of a run. -/
structure Outcome where
  /-- What the program reports by its end: 0 that all went well, 1 that it could not
  start, 2 that it could not read its arguments. -/
  exit : Nat
  failure : Option StartError := none
  folders : Folders
  /-- The lines on the standard output, where the log does not go there. -/
  printed : String := ""
  /-- The lines that were logged to the standard output as objects. -/
  log : List Line := []
  deriving Repr

/-- The addresses that can be listened on. -/
def bind (listening : List ReverseTunnel.Server.Bound) : ReverseTunnel.Server.Binder :=
  bindBeside listening (UInt16.ofNat (firstPort + listening.length))

/-- What a program logs from the moment that it has started until it has stopped. -/
def linesOf (p : CommandLine.Program) : List Line :=
  (if p.server.isSome then [⟨.server, .info, "control: listening"⟩] else []) ++
    (if p.client.isSome then
      [⟨.client, .debug, "client: state"⟩,
        ⟨.client, .warn, "client: connect failed; retrying"⟩] else []) ++
    (if p.admin.isSome then [⟨.admin, .info, "admin: listening"⟩] else []) ++
    [⟨.app, .info, "shutdown: signal"⟩] ++
    (if p.server.isSome then [⟨.server, .info, "control: stopped"⟩] else []) ++
    (if p.admin.isSome then [⟨.admin, .info, "admin: stopped"⟩] else [])

/-- Whether log lines go to the standard output as objects. -/
def logsObjects (s : Config.LoggingSettings) : Bool :=
  Logging.outputOf s.output = .stdout && Text.lowerAscii (Text.trim s.format) = "json"

/-- Of some log lines the ones that can be seen. -/
def visible (filter : Option String) (s : Config.LoggingSettings) (lines : List Line) :
    List Line :=
  if logsObjects s then
    lines.filter (Logging.isLetThrough (Logging.filterOf filter s.level))
  else []

/-- Runs the program. The environment may name a file and a filter. -/
def rehearse (args : List String) (config filter : Option String) (d : Folders) : Outcome :=
  match request? args config with
  | none => { exit := 2, folders := d }
  | some .help => { exit := 0, folders := d, printed := helpText }
  | some .version => { exit := 0, folders := d, printed := versionText }
  | some (.run flag) =>
    match prepare flag none d with
    | (folders, .error e) => { exit := 1, failure := some e, folders }
    | (folders, .ok loaded) =>
      let logging := loaded.settings.logging
      match loaded.start bind with
      | .error e =>
        { exit := 1, failure := some e, folders, log := visible filter logging loaded.lines }
      | .ok p =>
        { exit := 0, folders, log := visible filter logging (loaded.lines ++ linesOf p) }

end ReverseTunnel.Rehearsal.Program
