import ReverseTunnel.Client.DialBack
import ReverseTunnel.Client.Session
import ReverseTunnel.Control.Link

/-!
One control connection as its client runs it: the link, what the session knows, the
heartbeats that are due, and the attempts to dial back.

A heartbeat that comes due after the link was closed is not sent. An attempt to dial
back outlives the link; what it reports after the link was closed is not accepted.
-/

namespace ReverseTunnel.Client

open Control
open Wire (Message)

structure Serving where
  link : Link := {}
  session : Session
  /-- When heartbeats are due, in the order in which they were called for. -/
  beats : List Nat := []
  dials : List DialBack := []
  deriving DecidableEq, Repr

/-- What a step of a control connection does to the world around it. -/
inductive ServingEffect where
  | link (e : LinkEffect)
  | publish (s : State)
  /-- The attempt of that number does something. -/
  | dial (attempt : Nat) (e : DialEffect)
  deriving DecidableEq, Repr

/-- What can happen on a control connection of a client. -/
inductive ServingEvent where
  | link (e : LinkEvent)
  /-- The next message that was read is handled; a sealed request takes the nonce. -/
  | handle (nonce : Bytes)
  | beat
  /-- Something happens to the attempt of that number. -/
  | dial (attempt : Nat) (e : DialEvent)
  deriving DecidableEq, Repr

namespace Serving

def emit (s : Serving) (m : Message) : Serving × List ServingEffect :=
  let (_, link, effects) := s.link.emit m
  ({ s with link }, effects.map .link)

/-- Does what a message makes the client do. -/
def perform (o : Options) (now : Nat) (s : Serving) : SessionAction → Serving × List ServingEffect
  | .publish state => (s, [.publish state])
  | .emit m => s.emit m
  | .beatAfter delay => ({ s with beats := s.beats ++ [now + delay] }, [])
  | .dialBack session dataAddr localAddr =>
    let (d, effects) := DialBack.start session dataAddr localAddr o.dialTimeout now
    ({ s with dials := s.dials ++ [d] }, effects.map (.dial s.dials.length))

/-- Does several things in order. -/
def performAll (o : Options) (now : Nat) (s : Serving) :
    List SessionAction → Serving × List ServingEffect
  | [] => (s, [])
  | a :: rest =>
    let (s, effects) := s.perform o now a
    let (s, more) := performAll o now s rest
    (s, effects ++ more)

def start (o : Options) (now : Nat) : Serving × List ServingEffect :=
  performAll o now { session := .start o } (Session.greeting o)

def handle (o : Options) (a : Seal.Aead) (now : Nat) (nonce : Bytes) (s : Serving) :
    Serving × List ServingEffect :=
  match s.link.take? with
  | none => (s, [])
  | some (m, link) =>
    let (session, actions) := s.session.handle o a nonce m
    performAll o now { s with link, session } actions

/-- The first heartbeat that is due is sent, with the clock's time; none is sent on a
link that was closed. -/
def beat (now : Nat) (s : Serving) : Serving × List ServingEffect :=
  match s.beats.find? (· ≤ now) with
  | none => (s, [])
  | some due =>
    -- the beat is spent, whether or not it can be sent
    let s := { s with beats := s.beats.erase due }
    if s.link.closed then (s, []) else s.emit (.heartbeat (UInt64.ofNat now))

/-- Does what an attempt asks for: a report goes to the server, all else to the world
around. -/
def dialEffect (attempt : Nat) (session : UInt32) (s : Serving) :
    DialEffect → Serving × List ServingEffect
  | .report success => s.emit (.openDataConnAck session success)
  | e => (s, [.dial attempt e])

/-- Does several things that an attempt asks for. -/
def dialEffects (attempt : Nat) (session : UInt32) (s : Serving) :
    List DialEffect → Serving × List ServingEffect
  | [] => (s, [])
  | e :: rest =>
    let (s, effects) := s.dialEffect attempt session e
    let (s, more) := dialEffects attempt session s rest
    (s, effects ++ more)

/-- Something happens to an attempt. -/
def dial (now : Nat) (attempt : Nat) (e : DialEvent) (s : Serving) :
    Serving × List ServingEffect :=
  match s.dials[attempt]? with
  | none => (s, [])
  | some d =>
    let (d, effects) := d.step now e
    dialEffects attempt d.session { s with dials := s.dials.set attempt d } effects

def step (o : Options) (a : Seal.Aead) (now : Nat) (s : Serving) :
    ServingEvent → Serving × List ServingEffect
  | .link e =>
    let (link, effects) := s.link.step e
    ({ s with link }, effects.map .link)
  | .handle nonce => s.handle o a now nonce
  | .beat => s.beat now
  | .dial attempt e => s.dial now attempt e

end Serving

end ReverseTunnel.Client
