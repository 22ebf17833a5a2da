import ReverseTunnel.Address
import ReverseTunnel.Wire.Message

/-!
What a control client is told when it is started.

`Options.normalize?` fails exactly when the address of the server, or the name or
the local address of a proxy that is asked for, is blank.
-/

namespace ReverseTunnel.Client

/-- What the client asks the server to expose, and where it takes it from. -/
structure ProxyOptions where
  name : String
  localAddr : String
  remoteHost : Option String
  remotePort : UInt16
  secret : String
  /-- The key of sealed requests; an empty one stands for the secret. -/
  key : String
  /-- The host to dial for data connections. -/
  dataHost : String
  deriving DecidableEq, Repr

/-- The options of a client; delays are in milliseconds. -/
structure Options where
  serverAddr : String
  authToken : String
  minReconnectDelay : Nat
  maxReconnectDelay : Nat
  heartbeatDelay : Nat
  dialTimeout : Nat
  proxy : Option ProxyOptions
  deriving DecidableEq, Repr

/-- Why a client cannot be started. -/
inductive OptionsError where
  | serverAddrMissing
  | proxyNameMissing
  | proxyLocalAddrMissing
  deriving DecidableEq, Repr

def OptionsError.message : OptionsError → String
  | .serverAddrMissing => "client: server_addr is required"
  | .proxyNameMissing => "client: proxy name is required"
  | .proxyLocalAddrMissing => "client: proxy local_addr is required"

namespace ProxyOptions

/-- The key text under which requests are sealed. -/
def sealKey (p : ProxyOptions) : String := if p.key = "" then p.secret else p.key

/-- The request that is sealed and sent. -/
def request (p : ProxyOptions) : Wire.Request := ⟨p.secret, p.name, p.remoteHost, p.remotePort⟩

/-- The proxy options in force: data connections go to the server's host unless
another is given. -/
def normalize? (serverAddr : String) (p : ProxyOptions) : Except OptionsError ProxyOptions :=
  if Text.isBlankText p.name then .error .proxyNameMissing
  else if Text.isBlankText p.localAddr then .error .proxyLocalAddrMissing
  else if Text.isBlankText p.dataHost then .ok { p with dataHost := Address.hostOf serverAddr }
  else .ok p

end ProxyOptions

namespace Options

/-- A delay, or the default in place of none. -/
def orDefault (default delay : Nat) : Nat := if delay = 0 then default else delay

def normalize? (o : Options) : Except OptionsError Options := do
  let serverAddr := Text.trim o.serverAddr
  if serverAddr = "" then throw .serverAddrMissing
  let proxy ← match o.proxy with
    | some p => some <$> p.normalize? serverAddr
    | none => pure none
  return { o with
    serverAddr, proxy
    dialTimeout := orDefault 5000 o.dialTimeout
    minReconnectDelay := orDefault 1000 o.minReconnectDelay
    heartbeatDelay := orDefault 10000 o.heartbeatDelay }

end Options

end ReverseTunnel.Client
