import ReverseTunnel.Client.Backoff
import ReverseTunnel.Client.Serving

/-!
The loop of a control client: connect, serve the connection until it is finished,
rest, and connect again, until everything is shut down.

The rest after a connection that was served takes the least delay; after attempts
that failed it grows. The state is published at every change. What was dialed back
on a connection goes on when that connection is finished.
-/

namespace ReverseTunnel.Client

open Control

/-- Where the loop stands. -/
inductive Phase where
  /-- About to connect, or to stop. -/
  | ready
  | dialing
  | serving (s : Serving)
  | resting (till : Nat)
  | stopped
  deriving DecidableEq, Repr

structure Loop where
  options : Options
  backoff : Backoff
  state : State := .disconnected
  phase : Phase := .ready
  /-- The connections that are finished, oldest first. -/
  past : List Serving := []
  shutDown : Bool := false
  deriving DecidableEq, Repr

/-- What a step of a client does to the world around it. -/
inductive LoopEffect where
  | dial (addr : String)
  | serving (e : ServingEffect)
  /-- The state was changed to this. -/
  | published (s : State)
  deriving DecidableEq, Repr

/-- What can happen to a client. -/
inductive LoopEvent where
  /-- It connects, or stops if everything is being shut down. -/
  | go
  /-- The server accepts the connection, or cannot be reached. -/
  | dialed (success : Bool)
  /-- Something happens on the control connection. -/
  | serving (e : ServingEvent)
  /-- Something happens to an attempt to dial back on a finished connection. -/
  | past (connection attempt : Nat) (e : DialEvent)
  | wake
  | shutDown
  deriving DecidableEq, Repr

namespace Loop

/-- A client before it is run. -/
def start (o : Options) : Loop :=
  { options := o, backoff := .new o.minReconnectDelay o.maxReconnectDelay }

/-- Publishes a state, if it is another than before. -/
def publish (l : Loop) (s : State) : Loop × List LoopEffect :=
  if l.state = s then (l, []) else ({ l with state := s }, [.published s])

/-- Publishes what the control connection publishes. -/
def absorb (l : Loop) : List ServingEffect → Loop × List LoopEffect
  | [] => (l, [])
  | .publish s :: rest =>
    let (l, effects) := l.publish s
    let (l, more) := absorb l rest
    (l, effects ++ more)
  | e :: rest =>
    let (l, more) := absorb l rest
    (l, .serving e :: more)

/-- The client is disconnected and rests, unless everything is being shut down. -/
def rest (l : Loop) (now : Nat) : Loop × List LoopEffect :=
  let (l, effects) := l.publish .disconnected
  -- the backoff moves on even if nothing follows
  let (delay, backoff) := l.backoff.next
  let phase := if l.shutDown then .stopped else .resting (now + delay)
  ({ l with backoff, phase }, effects)

/-- The client connects, or stops. -/
def go (l : Loop) : Loop × List LoopEffect :=
  match l.phase with
  | .ready =>
    if l.shutDown then
      let (l, effects) := l.publish .disconnected
      ({ l with phase := .stopped }, effects)
    else
      let (l, effects) := l.publish .connecting
      ({ l with phase := .dialing }, effects ++ [.dial l.options.serverAddr])
  | _ => (l, [])

/-- The attempt to connect ends. -/
def dialed (l : Loop) (now : Nat) (success : Bool) : Loop × List LoopEffect :=
  match l.phase with
  | .dialing =>
    if success then
      let (s, effects) := Serving.start l.options now
      { l with backoff := l.backoff.reset, phase := .serving s }.absorb effects
    else l.rest now
  | _ => (l, [])

/-- Something happens on the control connection; once that is finished the client
rests. -/
def serve (l : Loop) (a : Seal.Aead) (now : Nat) (e : ServingEvent) : Loop × List LoopEffect :=
  match l.phase with
  | .serving s =>
    let (s, effects) := s.step l.options a now e
    let (l, effects) := { l with phase := .serving s }.absorb effects
    if s.link.stage = .finished then
      -- its attempts to dial back outlive it
      let (l, more) := { l with past := l.past ++ [s] }.rest now
      (l, effects ++ more)
    else (l, effects)
  | _ => (l, [])

/-- Something happens to an attempt to dial back on a finished connection. -/
def servePast (l : Loop) (now connection attempt : Nat) (e : DialEvent) : Loop × List LoopEffect :=
  match l.past[connection]? with
  | none => (l, [])
  | some s =>
    let (s, effects) := s.dial now attempt e
    { l with past := l.past.set connection s }.absorb effects

/-- The clock is looked at: a client that has rested enough gets ready. -/
def wake (l : Loop) (now : Nat) : Loop :=
  match l.phase with
  | .resting till => if till ≤ now then { l with phase := .ready } else l
  | _ => l

/-- Everything is being shut down; a client that rests stops at once. -/
def beginShutDown (l : Loop) : Loop :=
  match l.phase with
  | .resting _ => { l with shutDown := true, phase := .stopped }
  | _ => { l with shutDown := true }

def step (l : Loop) (a : Seal.Aead) (now : Nat) : LoopEvent → Loop × List LoopEffect
  | .go => l.go
  | .dialed success => l.dialed now success
  | .serving e => l.serve a now e
  | .past connection attempt e => l.servePast now connection attempt e
  | .wake => (l.wake now, [])
  | .shutDown => (l.beginShutDown, [])

end Loop

end ReverseTunnel.Client
