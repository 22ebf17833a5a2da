/-!
What a configuration file may say, section by section, before any rule is applied.

An `Option` field may be left out or left empty; a field with a value of its own
has that value when it is left out, and may not be left empty.
-/

namespace ReverseTunnel.Config

/-- The section on log output. -/
structure LoggingSection where
  level : Option String
  format : Option String
  output : Option String
  addSource : Bool
  deriving DecidableEq, Repr

/-- The section that asks for a control server; delays are in milliseconds. -/
structure ServerSection where
  listenAddr : Option String
  authToken : Option String
  secret : String
  key : Option String
  judgeDelay : Option Int64
  heartbeatDelay : Option Int64
  allowHostOverride : Bool
  unboundTtl : Option Int64
  defaultBindHost : Option String
  closeOnAuthFailure : Bool
  deriving DecidableEq, Repr

/-- The part of the client section that asks for a public port. -/
structure ProxySection where
  name : String
  localAddr : String
  remotePort : UInt16
  remoteHost : Option String
  secret : String
  key : Option String
  dataHost : Option String
  deriving DecidableEq, Repr

/-- The section that asks for a control client; delays are in milliseconds. -/
structure ClientSection where
  serverAddr : String
  authToken : Option String
  minReconnectDelay : Option Int64
  maxReconnectDelay : Option Int64
  heartbeatDelay : Option Int64
  dialTimeout : Option Int64
  proxy : Option ProxySection
  deriving DecidableEq, Repr

structure File where
  adminAddr : String
  logging : Option LoggingSection
  server : Option ServerSection
  client : Option ClientSection
  deriving DecidableEq, Repr

end ReverseTunnel.Config
