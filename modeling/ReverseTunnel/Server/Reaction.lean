import ReverseTunnel.Metrics
import ReverseTunnel.Server.Provision

/-!
What a control server does about each message of a control connection.

A token is answered with the verdict on it, a heartbeat of an authenticated
connection with its timestamp, and a request for a public port with the port or the
reason why there is none. A connection that sends a heartbeat unauthenticated or a
request that is refused is closed, and so is one with a bad token if the options say
so. Every other message is passed over.
-/

namespace ReverseTunnel.Server

open Session (ConnId)
open Wire (Message)

/-- What a message makes the server do on its connection. -/
inductive Action where
  | emit (m : Message)
  | close
  | count (c : Count)
  /-- A proxy that was registered starts to listen. -/
  | listen (p : Registration)
  deriving DecidableEq, Repr

/-- The verdict on a token. -/
def authVerdict (ok : Bool) : Message := .authAck ok (if ok then "" else "invalid token")

def onAuth (o : Options) (reg : Registry) (c : ConnId) (token : String) : Registry × List Action :=
  if o.admits token then (reg.authenticate c, [.emit (authVerdict true)])
  else
    -- a rejected token takes back what an earlier one gave
    (reg.dismiss c,
      .emit (authVerdict false) :: (if o.closeOnAuthFailure then [.close] else []))

def onHeartbeat (now : Nat) (reg : Registry) (c : ConnId) (timestamp : UInt64) : List Action :=
  if reg.isAuthenticated c then [.emit (.heartbeatAck timestamp (UInt64.ofNat now))] else [.close]

/-- The answer to a request that is granted. -/
def granted (o : Options) (port : UInt16) : Message :=
  .openDataPortAck true "" (UInt64.ofNat o.heartbeatDelay) port

/-- The answer to a request that is refused. -/
def refused (e : ProvisionError) : Message := .openDataPortAck false e.message 0 0

/-- A request for a public port comes in. A granted one is answered before its proxy
listens, so that no user is announced earlier. -/
def onOpenDataPort (o : Options) (a : Seal.Aead) (bind : Binder) (now : Nat) (reg : Registry)
    (c : ConnId) (sealedRequest : Bytes) : Registry × List Action :=
  match provision o a bind now reg c sealedRequest with
  | .ok p => (reg.register p, [.emit (granted o p.bound.port), .listen p])
  | .error e => (reg, [.count ⟨.provisionFailures, 1⟩, .emit (refused e), .close])

/-- What a message makes the server do, and what it remembers afterwards. -/
def react (o : Options) (a : Seal.Aead) (bind : Binder) (now : Nat) (reg : Registry) (c : ConnId) :
    Message → Registry × List Action
  | .auth token => onAuth o reg c token
  | .heartbeat timestamp => (reg, onHeartbeat now reg c timestamp)
  | .openDataPort sealedRequest => onOpenDataPort o a bind now reg c sealedRequest
  -- what only a server has to say is passed over
  | _ => (reg, [])

end ReverseTunnel.Server
