import ReverseTunnel.Proofs.Client.Attempts
import ReverseTunnel.Proofs.Server.Exchange

/-!
A server and a client on it, with the lines between them.

The server and the client take their own steps in any order, each by its own clock. A line
is a data connection that an attempt of the client has made. Some time later, or never, a
proxy of the server lets it in; what is put on it at one end comes out at the other in this
order, at any time and cut anywhere, and at either end it may end or be reset at any time.
Users come in at the proxies, and the backend takes connections of the client; both send and
end as they like. What arrives on the control connections is left open, so that nothing here
rests on what is announced there.

Every connection has a number at the end of the server or of the client that no other has
there, and it is recorded what has come in on it and what has gone out (`Traffic`).
-/

namespace ReverseTunnel

open Client (Attempt Loop LoopEvent LoopEffect DialBack DialEvent)
open Proxy (Table)
open Session (ConnId)
open Traffic (sending arriving)

/-- The connections of an attempt: the number of its data connection at the client, that at the
server once a proxy has let it in, and that of its connection to the backend once it has one. -/
structure Line where
  near : Nat
  far : Option Nat := none
  backend : Option Nat := none
  deriving DecidableEq, Repr

/-- A line has a connection of the client. -/
def Line.Has (l : Line) (key : Nat) : Prop := key = l.near ∨ l.backend = some key

/-- What comes out at an end of a line. -/
inductive Passage where
  /-- At most `n` of the bytes that are on the way. -/
  | bytes (n : Nat)
  | ended
  | gone
  | reset
  deriving DecidableEq, Repr

/-- What arrives, of the bytes that are on the way. -/
def Passage.arrival (way : Bytes) : Passage → Arrival
  | .bytes n => .bytes (way.take n)
  | .ended => .ended
  | .gone => .gone
  | .reset => .reset

structure Tunnel where
  server : Server.Run
  client : Loop
  /-- The number of the next connection that comes in at the server. -/
  nextInbound : Nat := 1
  /-- The number of the next connection that the client makes. -/
  nextOutbound : Nat := 1
  inbound : Nat → Traffic := fun _ => {}
  outbound : Nat → Traffic := fun _ => {}
  lines : Attempt → Option Line := fun _ => none
  /-- The connections that came in and are not the client's. -/
  visitors : List Nat := []

namespace Tunnel

/-- What a step does to the world around server and client. -/
inductive Effect where
  | server (e : Server.Effect)
  | client (e : LoopEffect)
  deriving DecidableEq, Repr

/-- What can happen to a server and its client. -/
inductive Event where
  /-- Something happens at the server by itself. -/
  | server (e : Server.Event)
  /-- Something happens at the client by itself, at a time of its clock. -/
  | client (now : Nat) (e : LoopEvent)
  /-- A user comes in at a proxy. -/
  | visit (owner : ConnId)
  /-- The far end of a connection that came in does something. -/
  | visitor (key : Nat) (b : Arrival)
  /-- The data connection that an attempt dials is made. -/
  | call (now : Nat) (p : Attempt)
  /-- A proxy lets in the data connection of an attempt. -/
  | letIn (p : Attempt) (owner : ConnId)
  /-- Something comes out at the server's end of a line. -/
  | up (p : Attempt) (y : Passage)
  /-- Something comes out at the client's end of a line. -/
  | down (now : Nat) (p : Attempt) (y : Passage)
  /-- The backend accepts what an attempt dials. -/
  | answer (now : Nat) (p : Attempt)
  /-- The backend does something on the connection of an attempt. -/
  | backend (now : Nat) (p : Attempt) (b : Arrival)

/-- A server and a client before anything has happened. -/
def start (so : Server.Options) (first : UInt32) (co : Client.Options) : Tunnel :=
  { server := .start so (.startingAt first), client := .start co }

/-! ## At either end -/

/-- The server has taken a step. -/
def onServer (x : Tunnel) (y : Server.Run × List Server.Effect) : Tunnel × List Effect :=
  ({ x with server := y.1, inbound := sending x.inbound (Server.outgoing y.2) }, y.2.map .server)

/-- The client has taken a step. -/
def onClient (x : Tunnel) (y : Loop × List LoopEffect) : Tunnel × List Effect :=
  ({ x with client := y.1, outbound := sending x.outbound (Client.outgoing y.2) }, y.2.map .client)

variable (a : Seal.Aead)

/-- A proxy lets in who comes. -/
def comeIn (x : Tunnel) (owner : ConnId) : Tunnel × List Effect :=
  let (y, effects) := x.onServer (x.server.step a (.table owner (.accept x.nextInbound)))
  ({ y with nextInbound := x.nextInbound + 1 }, effects)

/-- Something arrives at the server on a connection that came in. -/
def arrive (x : Tunnel) (key : Nat) (b : Arrival) : Tunnel × List Effect :=
  { x with inbound := arriving x.inbound key b }.onServer (x.server.deliver a key b)

/-- Something happens to an attempt of the client. -/
def tell (x : Tunnel) (now : Nat) (p : Attempt) (de : DialEvent) : Tunnel × List Effect :=
  x.onClient (x.client.step a now (x.client.event p de))

/-- Something arrives at the client on a connection of an attempt. -/
def arriveAt (x : Tunnel) (now : Nat) (p : Attempt) (key : Nat) (b : Arrival) : Tunnel × List Effect :=
  { x with outbound := arriving x.outbound key b }.tell a now p (.receive key b)

/-- What the server has put on a line. -/
def put (x : Tunnel) (l : Line) : Bytes :=
  match l.far with
  | none => []
  | some far => (x.inbound far).went

/-- The bytes on the way from the client to the server. -/
def upward (x : Tunnel) (near far : Nat) : Bytes :=
  (x.outbound near).went.drop (x.inbound far).came.sent.length

/-- The bytes on the way from the server to the client. -/
def downward (x : Tunnel) (l : Line) : Bytes := (x.put l).drop (x.outbound l.near).came.sent.length

/-- A look at a connection that is judged would end the judging. -/
def shows (t : Table) (key : Nat) : Bool :=
  match t.judging.find? (·.party.key = key) with
  | none => false
  | some j => j.party.socket.broken || (Proxy.look j.buffer j.party.socket).1.isSome

/-- What can happen at the server by itself: nothing that comes from outside, and the time of a
connection is not up before it was looked at. -/
def admits (x : Tunnel) : Server.Event → Bool
  | .table c (.timeUp key) => !shows (x.server.table c) key
  | e => e.isInner

/-- What can happen at the client by itself: nothing that comes from outside. -/
def clientAdmits (x : Tunnel) (e : LoopEvent) : Bool :=
  (x.client.dial? e).all fun (_, de) => de.isInner

def listens (x : Tunnel) (owner : ConnId) : Bool := (x.server.proxy? owner).any (·.listening)

/-- An attempt dials its data proxy. -/
def dialsData (x : Tunnel) (p : Attempt) : Bool :=
  (x.client.attempt? p).any fun d => match d.stage with
    | .dialingData _ => true
    | _ => false

/-- An attempt dials its backend. -/
def dialsLocal (x : Tunnel) (p : Attempt) : Bool :=
  (x.client.attempt? p).any fun d => match d.stage with
    | .dialingLocal _ _ => true
    | _ => false

/-- The tunnel with the line of an attempt. -/
def setLine (x : Tunnel) (p : Attempt) (l : Line) : Tunnel :=
  { x with lines := Function.update x.lines p (some l) }

/-- One step; what is not possible changes nothing. -/
def step (x : Tunnel) : Event → Tunnel × List Effect
  | .server e => if x.admits e then x.onServer (x.server.step a e) else (x, [])
  | .client now e => if x.clientAdmits e then x.onClient (x.client.step a now e) else (x, [])
  | .visit owner =>
    if x.listens owner then
      let (y, effects) := x.comeIn a owner
      ({ y with visitors := x.visitors ++ [x.nextInbound] }, effects)
    else (x, [])
  | .visitor key b => if key ∈ x.visitors then x.arrive a key b else (x, [])
  | .call now p =>
    if x.dialsData p then
      ({ x with nextOutbound := x.nextOutbound + 1 }.setLine p { near := x.nextOutbound }).tell
        a now p (.accepted x.nextOutbound)
    else (x, [])
  | .letIn p owner =>
    match x.lines p with
    | none => (x, [])
    | some l =>
      if x.listens owner ∧ l.far = none then
        let (y, effects) := x.comeIn a owner
        (y.setLine p { l with far := some x.nextInbound }, effects)
      else (x, [])
  | .up p y =>
    match x.lines p with
    | none => (x, [])
    | some l =>
      match l.far with
      | none => (x, [])
      | some far => x.arrive a far (y.arrival (x.upward l.near far))
  | .down now p y =>
    match x.lines p with
    | none => (x, [])
    | some l => x.arriveAt a now p l.near (y.arrival (x.downward l))
  | .answer now p =>
    match x.lines p with
    | none => (x, [])
    | some l =>
      if x.dialsLocal p then
        ({ x with nextOutbound := x.nextOutbound + 1 }.setLine p
          { l with backend := some x.nextOutbound }).tell a now p (.accepted x.nextOutbound)
      else (x, [])
  | .backend now p b =>
    match (x.lines p).bind (·.backend) with
    | none => (x, [])
    | some key => x.arriveAt a now p key b

end Tunnel

end ReverseTunnel
