import ReverseTunnel.Bytes
import ReverseTunnel.Wire.Kind

/-!
The messages of the control channel, and the request that a provisioning message
carries sealed.
-/

namespace ReverseTunnel.Wire

/-- A control message with its fields in the order in which they are written. -/
inductive Message where
  /-- The client presents its token. -/
  | auth (token : String)
  /-- The server's verdict on a token. -/
  | authAck (success : Bool) (message : String)
  /-- A sign of life, with the sender's clock. -/
  | heartbeat (timestamp : UInt64)
  /-- The answer to a sign of life, with its clock echoed. -/
  | heartbeatAck (timestamp serverTime : UInt64)
  /-- The client asks for a public port; `encrypted` is a sealed `Request`. -/
  | openDataPort (encrypted : Bytes)
  /-- The port that was bound, or why none was, and the heartbeat cadence the
  client is expected to keep. -/
  | openDataPortAck (success : Bool) (message : String) (heartbeatDelay : UInt64) (port : UInt16)
  /-- A user waits under a session id; the client is to dial back. -/
  | openDataConn (session : UInt32)
  /-- Whether the client could dial back for that session. -/
  | openDataConnAck (session : UInt32) (success : Bool)
  deriving DecidableEq, Repr

def Message.kind : Message → Kind
  | .auth .. => .auth
  | .authAck .. => .authAck
  | .heartbeat .. => .heartbeat
  | .heartbeatAck .. => .heartbeatAck
  | .openDataPort .. => .openDataPort
  | .openDataPortAck .. => .openDataPortAck
  | .openDataConn .. => .openDataConn
  | .openDataConnAck .. => .openDataConnAck

/-- What a client asks for when it wants a public port. -/
structure Request where
  secret : String
  name : String
  host : Option String
  port : UInt16
  deriving DecidableEq, Repr

end ReverseTunnel.Wire
