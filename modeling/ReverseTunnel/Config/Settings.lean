import ReverseTunnel.Address
import ReverseTunnel.Config.File

/-!
Settings: what a configuration file comes to once every rule is applied.

`File.settings` trims every text, fills in what was left out, and refuses a file
that cannot be run; of two faults the first in the order of `SettingsError` is
reported, the server's before the client's. Delays are whole milliseconds.
-/

namespace ReverseTunnel.Config

/-- Where log lines go, which of them, and in what form. -/
structure LoggingSettings where
  level : String
  format : String
  output : String
  addSource : Bool
  deriving DecidableEq, Repr

structure ServerSettings where
  listenAddr : String
  authToken : String
  secret : String
  key : String
  judgeDelay : Nat
  heartbeatDelay : Nat
  allowHostOverride : Bool
  unboundTtl : Nat
  defaultBindHost : String
  closeOnAuthFailure : Bool
  deriving DecidableEq, Repr

/-- What a client asks the server to expose, and where it takes it from. -/
structure ProxySettings where
  name : String
  localAddr : String
  remotePort : UInt16
  remoteHost : Option String
  secret : String
  key : String
  dataHost : String
  deriving DecidableEq, Repr

structure ClientSettings where
  serverAddr : String
  authToken : String
  minReconnectDelay : Nat
  maxReconnectDelay : Nat
  heartbeatDelay : Nat
  dialTimeout : Nat
  proxy : Option ProxySettings
  deriving DecidableEq, Repr

structure Settings where
  adminAddr : String
  logging : LoggingSettings
  server : Option ServerSettings
  client : Option ClientSettings
  deriving DecidableEq, Repr

/-- Why a configuration file cannot be run. -/
inductive SettingsError where
  | judgeDelayNotPositive
  | unboundTtlTooShort
  | serverSecretMissing
  | serverAddrMissing
  | proxyNameMissing
  | proxyLocalAddrMissing
  deriving DecidableEq, Repr

def SettingsError.message : SettingsError → String
  | .judgeDelayNotPositive => "config: server.judge_delay_ms must be positive"
  | .unboundTtlTooShort => "config: server.unbound_ttl_ms must exceed judge_delay_ms"
  | .serverSecretMissing => "config: server.secret (or server.key) is required"
  | .serverAddrMissing => "config: client.server_addr is required"
  | .proxyNameMissing => "config: client.proxy.name is required"
  | .proxyLocalAddrMissing => "config: client.proxy.local_addr is required"

/-- The shortest cadence of heartbeats. -/
def minHeartbeatDelay : Nat := 100

/-- A delay as configured, a negative one as none, or the default. -/
def delayOr (default : Nat) : Option Int64 → Nat
  | some ms => ms.toInt.toNat
  | none => default

/-- A text as configured, trimmed, or nothing. -/
def trimmedOr : Option String → String
  | some s => Text.trim s
  | none => ""

/-- A text as configured, trimmed, or the default if that leaves nothing. -/
def filledOr (default : String) : Option String → String
  | some s => if Text.isBlankText s then default else Text.trim s
  | none => default

def LoggingSection.settings (s : LoggingSection) : LoggingSettings where
  level := filledOr "info" s.level
  format := filledOr "json" s.format
  output := filledOr "stderr" s.output
  addSource := s.addSource

/-- The settings on log output when the section is left out. -/
def LoggingSettings.standard : LoggingSettings := ⟨"info", "json", "stderr", false⟩

/-- How long a user may wait: as configured if that is positive, else a hundred
times as long as a connection is judged. -/
def ServerSection.effectiveTtl (s : ServerSection) (judgeDelay : Nat) : Nat :=
  match s.unboundTtl with
  | some ms => if 0 < ms.toInt then ms.toInt.toNat else judgeDelay * 100
  | none => judgeDelay * 100

def ServerSection.settings (s : ServerSection) : Except SettingsError ServerSettings :=
  let judgeDelay := delayOr 300 s.judgeDelay
  let unboundTtl := s.effectiveTtl judgeDelay
  let secret := Text.trim s.secret
  let key := filledOr secret s.key
  -- in this order, whichever of them fail
  if judgeDelay = 0 then .error .judgeDelayNotPositive
  else if unboundTtl ≤ judgeDelay then .error .unboundTtlTooShort
  else if key = "" then .error .serverSecretMissing
  else .ok {
    listenAddr := filledOr ":7000" s.listenAddr
    authToken := trimmedOr s.authToken
    secret, key, judgeDelay
    heartbeatDelay := max (delayOr 10000 s.heartbeatDelay) minHeartbeatDelay
    allowHostOverride := s.allowHostOverride
    unboundTtl
    defaultBindHost := filledOr "0.0.0.0" s.defaultBindHost
    closeOnAuthFailure := s.closeOnAuthFailure }

/-- The settings of a client's proxy; its data host is the server's unless one is
given. -/
def ProxySection.settings (serverAddr : String) (p : ProxySection) :
    Except SettingsError ProxySettings :=
  let name := Text.trim p.name
  let localAddr := Text.trim p.localAddr
  let secret := Text.trim p.secret
  if name = "" then .error .proxyNameMissing
  else if localAddr = "" then .error .proxyLocalAddrMissing
  else .ok {
    name, localAddr, secret
    remotePort := p.remotePort
    -- a blank host is none
    remoteHost := (p.remoteHost.map Text.trim).filter (· != "")
    key := filledOr secret p.key
    dataHost := filledOr (Address.hostOf serverAddr) p.dataHost }

def ClientSection.settings (c : ClientSection) : Except SettingsError ClientSettings := do
  let serverAddr := Text.trim c.serverAddr
  if serverAddr = "" then throw .serverAddrMissing
  let proxy ← match c.proxy with
    | some p => some <$> p.settings serverAddr
    | none => pure none
  let minReconnectDelay := delayOr 1000 c.minReconnectDelay
  return {
    serverAddr, minReconnectDelay, proxy
    authToken := trimmedOr c.authToken
    maxReconnectDelay := max (delayOr 60000 c.maxReconnectDelay) minReconnectDelay
    heartbeatDelay := max (delayOr 10000 c.heartbeatDelay) minHeartbeatDelay
    dialTimeout := delayOr 5000 c.dialTimeout }

def File.settings (f : File) : Except SettingsError Settings := do
  let server ← match f.server with
    | some s => some <$> s.settings
    | none => pure none
  let client ← match f.client with
    | some c => some <$> c.settings
    | none => pure none
  return {
    adminAddr := Text.trim f.adminAddr
    logging := match f.logging with
      | some l => l.settings
      | none => .standard
    server, client }

end ReverseTunnel.Config
