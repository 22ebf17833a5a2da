import ReverseTunnel.Client.Options
import ReverseTunnel.Seal.Envelope

/-!
What a control client does about each message of one control connection.

A session remembers two things that the server may tell it: how long to wait before
a heartbeat, and the port for data connections. Both are forgotten with the
connection. The client says who it is first. Once it is accepted it asks for its
public port and starts the heartbeats, each of which is due a fixed time after the
message that calls for it.
-/

namespace ReverseTunnel.Client

open Wire (Message)

/-- How a client stands with its server. -/
inductive State where
  | disconnected
  | connecting
  | connectedUnauth
  | authenticated
  deriving DecidableEq, Repr

def State.name : State → String
  | .disconnected => "disconnected"
  | .connecting => "connecting"
  | .connectedUnauth => "connected_unauth"
  | .authenticated => "authenticated"

/-- The shortest cadence that a server may dictate, in milliseconds. -/
def minHeartbeatDelay : Nat := 100

/-- What a client knows on one control connection. -/
structure Session where
  heartbeatDelay : Nat
  /-- The port for data connections; 0 as long as there is none. -/
  dataPort : UInt16 := 0
  deriving DecidableEq, Repr

/-- What a message makes the client do. -/
inductive SessionAction where
  | publish (s : State)
  | emit (m : Message)
  /-- A heartbeat is due after so long. -/
  | beatAfter (delay : Nat)
  /-- A data connection is to be made for a waiting user. -/
  | dialBack (session : UInt32) (dataAddr localAddr : String)
  deriving DecidableEq, Repr

namespace Session

/-- A session before anything is known. -/
def start (o : Options) : Session := { heartbeatDelay := o.heartbeatDelay }

/-- What a client does first on a new connection. -/
def greeting (o : Options) : List SessionAction :=
  [.publish .connectedUnauth, .emit (.auth o.authToken)]

/-- The request for a public port, if one is wanted. -/
def portRequest (o : Options) (a : Seal.Aead) (nonce : Bytes) : List SessionAction :=
  match o.proxy with
  | none => []
  | some p => [.emit (.openDataPort (Seal.sealRequest a p.sealKey nonce p.request))]

/-- The cadence after the server has dictated one; 0 dictates none. -/
def cadence (current : Nat) (dictated : UInt64) : Nat :=
  if dictated = 0 then current else max dictated.toNat minHeartbeatDelay

/-- What a message makes the client do, and what it knows afterwards. A sealed request
takes the nonce it is given. -/
def handle (s : Session) (o : Options) (a : Seal.Aead) (nonce : Bytes) :
    Message → Session × List SessionAction
  | .authAck true _ =>
    (s, [.publish .authenticated, .beatAfter s.heartbeatDelay] ++ portRequest o a nonce)
  | .heartbeatAck _ _ => (s, [.beatAfter s.heartbeatDelay])
  -- the new cadence holds from the next acknowledged heartbeat on
  | .openDataPortAck true _ delay port =>
    ({ heartbeatDelay := cadence s.heartbeatDelay delay, dataPort := port }, [])
  | .openDataConn session =>
    match o.proxy with
    | some p =>
      -- a session announced before the port is known cannot be dialed back
      if s.dataPort = 0 then (s, [])
      else (s, [.dialBack session (Address.join p.dataHost s.dataPort) p.localAddr])
    | none => (s, [])
  | _ => (s, [])

end Session

end ReverseTunnel.Client
