import ReverseTunnel.Relay
import ReverseTunnel.Session.Handshake

/-!
Dialing back: how a client brings a waiting user and its local backend together.

The client dials the data proxy, writes the handshake of the session and reads it
back; only when the same bytes have come back does it dial the backend, and only
when the backend has accepted does it report success and relay the two. Whatever
fails before that ends the attempt with a report of failure. Dialing the proxy,
waiting for the handshake and dialing the backend may each take the dial timeout.
-/

namespace ReverseTunnel.Client

open Session (Handshake.encode Handshake.length)

/-- How far an attempt has come. -/
inductive DialStage where
  | dialingData (deadline : Nat)
  /-- The handshake is written; so much of it has come back. -/
  | awaitingEcho (data : Party) (got : Bytes) (deadline : Nat)
  | dialingLocal (data : Party) (deadline : Nat)
  /-- The data connection in front, the backend behind it. -/
  | relaying (r : Relay)
  | ended
  deriving DecidableEq, Repr

/-- One attempt to dial back. -/
structure DialBack where
  session : UInt32
  dataAddr : String
  localAddr : String
  timeout : Nat
  stage : DialStage
  deriving DecidableEq, Repr

/-- What an attempt does to the world around it. -/
inductive DialEffect where
  | dial (addr : String)
  | relay (e : RelayEffect)
  | drop (key : Nat)
  /-- The server is told how the attempt went. -/
  | report (success : Bool)
  deriving DecidableEq, Repr

/-- What can happen to an attempt. -/
inductive DialEvent where
  /-- The address that was dialed last accepts, and the connection gets this number. -/
  | accepted (key : Nat)
  | refused
  | receive (key : Nat) (a : Arrival)
  | look
  | clock
  | relay (e : RelayEvent)
  deriving DecidableEq, Repr

namespace DialBack

def start (session : UInt32) (dataAddr localAddr : String) (timeout now : Nat) :
    DialBack × List DialEffect :=
  ({ session, dataAddr, localAddr, timeout, stage := .dialingData (now + timeout) },
    [.dial dataAddr])

/-- The attempt fails, and its data connection is dropped. -/
def fail (d : DialBack) (data : List Party) : DialBack × List DialEffect :=
  ({ d with stage := .ended }, data.map (fun p => .drop p.key) ++ [.report false])

def accepted (d : DialBack) (key now : Nat) : DialBack × List DialEffect :=
  match d.stage with
  | .dialingData _ =>
    ({ d with stage := .awaitingEcho ⟨key, {}⟩ [] (now + d.timeout) },
      [.relay (.deliver key (Handshake.encode d.session))])
  -- nothing is left over from the echo, so the relay has no opening
  | .dialingLocal data _ =>
    ({ d with stage := .relaying { front := data, back := ⟨key, {}⟩ } }, [.report true])
  | _ => (d, [])

def refused (d : DialBack) : DialBack × List DialEffect :=
  match d.stage with
  | .dialingData _ => d.fail []
  | .dialingLocal data _ => d.fail [data]
  | _ => (d, [])

def receive (d : DialBack) (key : Nat) (a : Arrival) : DialBack :=
  match d.stage with
  | .awaitingEcho data got deadline =>
    { d with stage := .awaitingEcho (data.receive key a) got deadline }
  | .dialingLocal data deadline => { d with stage := .dialingLocal (data.receive key a) deadline }
  | .relaying r => { d with stage := .relaying (r.receive key a) }
  | _ => d

def look (d : DialBack) (now : Nat) : DialBack × List DialEffect :=
  match d.stage with
  | .awaitingEcho data got deadline =>
    -- no byte behind the echo is taken from the user
    let room := Handshake.length - got.length
    let seen := got ++ data.socket.unread.take room
    let data := { data with socket := { data.socket with unread := data.socket.unread.drop room } }
    if data.socket.broken then d.fail [data]
    else if seen.length = Handshake.length then
      if seen = Handshake.encode d.session then
        ({ d with stage := .dialingLocal data (now + d.timeout) }, [.dial d.localAddr])
      else d.fail [data]
    else if data.socket.remoteEnded then d.fail [data]
    else ({ d with stage := .awaitingEcho data seen deadline }, [])
  | _ => (d, [])

/-- The clock is looked at: an attempt that has taken too long fails. -/
def clock (d : DialBack) (now : Nat) : DialBack × List DialEffect :=
  match d.stage with
  | .dialingData deadline => if deadline ≤ now then d.fail [] else (d, [])
  | .awaitingEcho data _ deadline => if deadline ≤ now then d.fail [data] else (d, [])
  | .dialingLocal data deadline => if deadline ≤ now then d.fail [data] else (d, [])
  | _ => (d, [])

/-- The relay takes a step; when it ends both connections are dropped. -/
def relay (d : DialBack) (e : RelayEvent) : DialBack × List DialEffect :=
  match d.stage with
  | .relaying r =>
    match r.step e with
    | .goesOn r effects => ({ d with stage := .relaying r }, effects.map .relay)
    | _ => ({ d with stage := .ended }, [.drop r.front.key, .drop r.back.key])
  | _ => (d, [])

def step (d : DialBack) (now : Nat) : DialEvent → DialBack × List DialEffect
  | .accepted key => d.accepted key now
  | .refused => d.refused
  | .receive key a => (d.receive key a, [])
  | .look => d.look now
  | .clock => d.clock now
  | .relay e => d.relay e

end DialBack

end ReverseTunnel.Client
