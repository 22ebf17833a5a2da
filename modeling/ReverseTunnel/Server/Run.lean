import ReverseTunnel.Control.Link
import ReverseTunnel.Proxy.Table
import ReverseTunnel.Server.Reaction

/-!
A control server at work: its registry, its control connections and its data
proxies, which share one source of session ids.

A proxy listens from the answer to its request until its owner has disconnected.
Then its listener stops and its table is cleared; what is paired goes on, and a
connection that is still being judged is dropped once it is judged, for its owner
accepts nothing any more. While a proxy listens it sweeps its table at regular
times and drops the users that have waited too long.

Every step is an event, so that a list of events is a run of the server with any
order of what happens on its connections, and a step that is not possible changes
nothing.
-/

namespace ReverseTunnel.Server

open Control
open Proxy (Table TableEvent TableEffect Surroundings)
open Session (ConnId IdSource)

structure Connection where
  id : ConnId
  /-- The address of its far end, where there is one. -/
  peer : Option String := none
  link : Link := {}
  deriving DecidableEq, Repr

structure DataProxy where
  owner : ConnId
  table : Table
  startedAt : Nat
  /-- How often its table was swept. -/
  sweeps : Nat := 0
  /-- Its owner has disconnected. -/
  stopped : Bool := false
  listening : Bool := true
  deriving DecidableEq, Repr

structure Run where
  options : Options
  now : Nat := 0
  registry : Registry := {}
  ids : IdSource := .fresh
  /-- The number of the next control connection. -/
  nextConn : Nat := 1
  connections : List Connection := []
  proxies : List DataProxy := []
  deriving DecidableEq, Repr

/-- What a step of a server does to the world around it. -/
inductive Effect where
  | link (c : ConnId) (e : LinkEffect)
  | table (owner : ConnId) (e : TableEffect)
  | count (c : Count)
  deriving DecidableEq, Repr

/-- What can happen to a server. -/
inductive Event where
  | connect (peer : Option String)
  /-- Something happens on the link of a connection. -/
  | link (c : ConnId) (e : LinkEvent)
  /-- The next message that was read on a connection is handled. -/
  | handle (c : ConnId) (bind : Binder)
  /-- Something happens to the table of a proxy. -/
  | table (owner : ConnId) (e : TableEvent)
  /-- A proxy sweeps its table. -/
  | sweep (owner : ConnId)
  /-- The listener of a proxy notices that its owner has disconnected. -/
  | wind (owner : ConnId)
  | advance (ms : Nat)

/-- When a proxy sweeps its table for the `k`th time, counted from 0: every half
time-to-live, but not more often than every ten milliseconds, on the first
millisecond that is not earlier. -/
def sweepTime (startedAt ttl k : Nat) : Nat := startedAt + (k * max ttl 20 + 1) / 2

namespace Run

/-- A server before it has connections; session ids start where told. -/
def start (o : Options) (ids : IdSource) : Run := { options := o.normalize, ids }

def link? (r : Run) (c : ConnId) : Option Link := (r.connections.find? (·.id = c)).map (·.link)

/-- The server with another link of a connection. -/
def setLink (r : Run) (c : ConnId) (l : Link) : Run :=
  { r with connections := r.connections.map fun k => if k.id = c then { k with link := l } else k }

/-- The proxy that a connection owns or owned. -/
def proxy? (r : Run) (owner : ConnId) : Option DataProxy := r.proxies.find? (·.owner = owner)

/-- The server with a change of a proxy. -/
def changeProxy (r : Run) (owner : ConnId) (f : DataProxy → DataProxy) : Run :=
  { r with proxies := r.proxies.map fun p => if p.owner = owner then f p else p }

def connect (r : Run) (peer : Option String) : Run :=
  { r with
    nextConn := r.nextConn + 1
    connections := r.connections ++ [{ id := ⟨r.nextConn⟩, peer }] }

/-- A message is emitted on a connection. -/
def emit (r : Run) (c : ConnId) (m : Wire.Message) : Run × List Effect :=
  match r.link? c with
  | none => (r, [])
  | some l =>
    let (_, l, effects) := l.emit m
    (r.setLink c l, effects.map (.link c))

/-- A connection has finished: it is forgotten, and its proxy stops. -/
def disconnect (r : Run) (c : ConnId) : Run :=
  { r with registry := r.registry.forget c }.changeProxy c fun p => { p with stopped := true }

/-- Something happens on the link of a connection. -/
def onLink (r : Run) (c : ConnId) (e : LinkEvent) : Run × List Effect :=
  match r.link? c with
  | none => (r, [])
  | some l =>
    let (l', effects) := l.step e
    let r := r.setLink c l'
    -- only the step that finishes the link disconnects
    (if l.stage ≠ .finished ∧ l'.stage = .finished then r.disconnect c else r,
      effects.map (.link c))

/-- Does what a message makes the server do on its connection. -/
def perform (c : ConnId) (r : Run) : Action → Run × List Effect
  | .emit m => r.emit c m
  | .close =>
    match r.link? c with
    | none => (r, [])
    | some l => (r.setLink c l.close, [])
  | .count n => (r, [.count n])
  | .listen p =>
    ({ r with proxies := r.proxies ++
        [{ owner := p.owner, table := { judgeDelay := r.options.judgeDelay }, startedAt := r.now }] },
      [.count ⟨.dataProxiesActive, 1⟩])

/-- Does several things in order. -/
def performAll (c : ConnId) (r : Run) : List Action → Run × List Effect
  | [] => (r, [])
  | a :: rest =>
    let (r, effects) := r.perform c a
    let (r, more) := performAll c r rest
    (r, effects ++ more)

/-- The next message that was read on a connection is handled. -/
def handle (a : Seal.Aead) (bind : Binder) (r : Run) (c : ConnId) : Run × List Effect :=
  match (r.link? c).bind Link.take? with
  | none => (r, [])
  | some (m, l) =>
    let (registry, actions) := react r.options a bind r.now r.registry c m
    performAll c { r.setLink c l with registry } actions

/-- The world around the table of a proxy. -/
def around (r : Run) (owner : ConnId) : Surroundings :=
  { now := r.now, ids := r.ids, ownerAccepts := (r.link? owner).any (·.accepts) }

/-- Announces a session to the owner if that is what a table does. -/
def announce (owner : ConnId) (r : Run) : TableEffect → Run × List Effect
  | .announce session => r.emit owner (.openDataConn session)
  | e => (r, [.table owner e])

/-- Does what a table asks for, in order. -/
def announceAll (owner : ConnId) (r : Run) : List TableEffect → Run × List Effect
  | [] => (r, [])
  | e :: rest =>
    let (r, effects) := r.announce owner e
    let (r, more) := announceAll owner r rest
    (r, effects ++ more)

/-- Something happens to the table of a proxy; nothing comes in once it does not listen. -/
def onTable (r : Run) (owner : ConnId) (e : TableEvent) : Run × List Effect :=
  match r.proxy? owner with
  | none => (r, [])
  | some p =>
    match e, p.listening with
    -- the listener has stopped, and who comes is not let in
    | .accept _, false => (r, [])
    | e, _ =>
      let t := p.table.step (r.around owner) e
      announceAll owner ({ r with ids := t.ids }.changeProxy owner fun p => { p with table := t.table })
        t.effects

/-- A proxy sweeps its table, if it listens and it is time. -/
def sweep (r : Run) (owner : ConnId) : Run × List Effect :=
  match r.proxy? owner with
  | none => (r, [])
  | some p =>
    if p.listening ∧ sweepTime p.startedAt r.options.unboundTtl p.sweeps ≤ r.now then
      (r.changeProxy owner fun p => { p with sweeps := p.sweeps + 1 }).onTable owner
        (.evict r.options.unboundTtl)
    else (r, [])

/-- The listener of a proxy whose owner has disconnected stops, and its table is
cleared. -/
def wind (r : Run) (owner : ConnId) : Run × List Effect :=
  match r.proxy? owner with
  | none => (r, [])
  | some p =>
    if p.stopped ∧ p.listening then
      let (r, effects) := (r.changeProxy owner fun p => { p with listening := false }).onTable owner
        .clear
      (r, effects ++ [.count ⟨.dataProxiesActive, -1⟩])
    else (r, [])

def step (a : Seal.Aead) (r : Run) : Event → Run × List Effect
  | .connect peer => (r.connect peer, [])
  | .link c e => r.onLink c e
  | .handle c bind => r.handle a bind c
  | .table owner e => r.onTable owner e
  | .sweep owner => r.sweep owner
  | .wind owner => r.wind owner
  | .advance ms => ({ r with now := r.now + ms }, [])

end Run

/-- What is shown of a registered proxy. -/
structure ProxySnapshot where
  registration : Registration
  ownerPeer : Option String
  /-- How many users wait. -/
  waiting : Nat
  deriving DecidableEq, Repr

namespace Run

/-- What is shown of one proxy. -/
def snapshotOf (r : Run) (p : Registration) : ProxySnapshot where
  registration := p
  ownerPeer := (r.connections.find? (·.id = p.owner)).bind (·.peer)
  waiting := ((r.proxy? p.owner).map (·.table.waiting.length)).getD 0

/-- What is shown of the registered proxies, the oldest first. -/
def snapshot (r : Run) : List ProxySnapshot := r.registry.proxies.map r.snapshotOf

end Run

end ReverseTunnel.Server
