import ReverseTunnel.Client.Options
import ReverseTunnel.Config.Load
import ReverseTunnel.Config.Locate
import ReverseTunnel.Logging.Filter
import ReverseTunnel.Logging.Output
import ReverseTunnel.Server.Provision

/-!
Starting the program: from a configuration file to what is run.

The file is located, made if need be, and loaded; then the log is opened, and at last
the addresses are listened on, the server's before the admin interface's. The first
step that fails ends the program with its message, and what earlier steps did stays
done.
-/

namespace ReverseTunnel.CommandLine

open Config (LocateError Settings Source)
open Disk (Folders)
open Logging (Line)
open Server (Binder Bound)

/-- Why the program does not start. -/
inductive StartError where
  | locate (error : LocateError)
  | load (path : String)
  | output (error : Logging.OutputError)
  | nothingToRun
  | listenControl (addr : String)
  | client (error : Client.OptionsError)
  | listenAdmin (addr : String)
  deriving DecidableEq, Repr

def StartError.message : StartError → String
  | .locate error => error.message
  | .load path => "load config: " ++ path
  | .output error => error.message
  | .nothingToRun => "config: nothing to run (set [server] and/or [client])"
  | .listenControl addr => "control: listen " ++ addr
  | .client error => error.message
  | .listenAdmin addr => "admin: listen " ++ addr

/-- The options of a server with some settings. -/
def serverOptions (s : Config.ServerSettings) : Server.Options := {
  listenAddr := s.listenAddr, authToken := s.authToken, secret := s.secret, key := s.key
  judgeDelay := s.judgeDelay, heartbeatDelay := s.heartbeatDelay, unboundTtl := s.unboundTtl
  allowHostOverride := s.allowHostOverride, defaultBindHost := s.defaultBindHost
  closeOnAuthFailure := s.closeOnAuthFailure }

/-- The options of a client's proxy with some settings. -/
def proxyOptions (p : Config.ProxySettings) : Client.ProxyOptions := {
  name := p.name, localAddr := p.localAddr, remoteHost := p.remoteHost
  remotePort := p.remotePort, secret := p.secret, key := p.key, dataHost := p.dataHost }

/-- The options of a client with some settings. -/
def clientOptions (c : Config.ClientSettings) : Client.Options := {
  serverAddr := c.serverAddr, authToken := c.authToken
  minReconnectDelay := c.minReconnectDelay, maxReconnectDelay := c.maxReconnectDelay
  heartbeatDelay := c.heartbeatDelay, dialTimeout := c.dialTimeout
  proxy := c.proxy.map proxyOptions }

structure Program where
  configPath : String
  settings : Settings
  server : Option (Server.Options × Bound) := none
  client : Option Client.Options := none
  admin : Option Bound := none
  deriving DecidableEq, Repr

/-- A configuration that is loaded, with the log that it asks for open. -/
structure Loaded where
  path : String
  source : Source
  created : Bool
  settings : Settings
  deriving DecidableEq, Repr

def prepare (flag environment : Option String) (d : Folders) :
    Folders × Except StartError Loaded :=
  match Config.resolve d flag environment with
  | .error e => (d, .error (.locate e))
  | .ok (path, source) =>
    match Config.ensure path d with
    | (d, .error e) => (d, .error (.locate e))
    | (d, .ok created) =>
      match Config.load d path with
      | .error _ => (d, .error (.load path))
      | .ok settings =>
        match (Logging.outputOf settings.logging.output).prepare d with
        | (d, .error e) => (d, .error (.output e))
        | (d, .ok ()) => (d, .ok { path, source, created, settings })

/-- The log lines of a configuration that is loaded. -/
def Loaded.lines (l : Loaded) : List Line :=
  (if l.created then [⟨.app, .warn, "config: created new config file"⟩] else []) ++
    (if l.settings.server.isSome || l.settings.client.isSome then
      [⟨.app, .info, "tether: starting"⟩] else [])

/-- Listens on an address beside those that are listened on. -/
def listen (bind : List Bound → Binder) (beside : List Bound) (addr : String) : Option Bound :=
  (bind beside (Address.normalizeBind addr)).toOption

/-- Starts what the settings ask for. -/
def Loaded.start (bind : List Bound → Binder) (l : Loaded) : Except StartError Program := do
  if l.settings.server.isNone && l.settings.client.isNone then throw .nothingToRun
  let server ← match l.settings.server with
    | none => pure none
    | some s =>
      match listen bind [] s.listenAddr with
      | some bound => pure (some ((serverOptions s).normalize, bound))
      | none => throw (.listenControl (Address.normalizeBind s.listenAddr))
  let client ← match l.settings.client with
    | none => pure none
    | some c => some <$> (clientOptions c).normalize?.mapError .client
  let admin ← match l.settings.adminAddr with
    | "" => pure none
    | addr =>
      match listen bind (server.map (·.2)).toList addr with
      | some bound => pure (some bound)
      | none => throw (.listenAdmin (Address.normalizeBind addr))
  return { configPath := l.path, settings := l.settings, server, client, admin }

end ReverseTunnel.CommandLine
