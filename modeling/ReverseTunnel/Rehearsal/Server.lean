import ReverseTunnel.Admin.Route
import ReverseTunnel.Rehearsal.Cast
import ReverseTunnel.Rehearsal.ClientLoop
import ReverseTunnel.Rehearsal.Ports
import ReverseTunnel.Rehearsal.Turn

/-!
The rehearsal of a control server.

Control connections are made within the process, each with a peer at its far end.
There is no network: what is dialed refuses, so that no user ever comes to a proxy
and sweeping finds nothing.
-/

namespace ReverseTunnel.Rehearsal.Server

open ReverseTunnel.Server (Run Bound Binder Event Effect ProxySnapshot)
open Control
open Session (ConnId)

inductive Op where
  /-- A control connection comes in, if there is a way for it. -/
  | connect (name : String)
  /-- A peer sends bytes that may name ports which were bound. -/
  | send (name : String) (bytes : (String → UInt16) → Bytes)
  | peer (name : String) (act : PeerAct)
  /-- Something is dialed. -/
  | dial
  | client (options : Client.Options)
  | snapshot
  | admin (method path : String)
  | advance (ms : Nat)
  | stop

structure Report where
  news : List (String × News)
  refused : Bool := false
  states : List (Nat × Client.State) := []
  snapshot : Option (List ProxySnapshot × List Nat) := none
  response : Option Admin.Response := none
  /-- Every address bound so far, with the name of its proxy. -/
  bound : List (String × Bound) := []

structure Scene where
  run : Run
  /-- Whether control connections come in without a network. -/
  inProcess : Bool
  cast : Cast := {}
  metrics : Metrics := {}
  client : Option ClientLoop := none
  /-- Every address bound so far, with the name of its proxy. -/
  bound : List (String × Bound) := []
  shutDown : Bool := false

namespace Scene

/-- A server before its first step. -/
def start (o : ReverseTunnel.Server.Options) (inProcess : Bool) : Scene :=
  { run := .start o .fresh, inProcess }

/-- What the server did to the world around it. -/
def effect (s : Scene) : Effect → Scene
  | .link c (.sent bs) => { s with cast := s.cast.deliver c.number bs }
  | .link c .sentEnd => { s with cast := s.cast.finish c.number }
  | .link _ (.count n) => { s with metrics := s.metrics.add n }
  | .table _ (.count n) => { s with metrics := s.metrics.add n }
  | .table _ _ => s
  | .count n => { s with metrics := s.metrics.add n }

def step (s : Scene) (e : Event) : Scene :=
  let (run, effects) := s.run.step Seal.aes256Gcm e
  effects.foldl effect { s with run }

/-- How addresses are bound now. -/
def binder (s : Scene) : Binder :=
  bindBeside (s.run.registry.proxies.map (·.bound)) (UInt16.ofNat (firstPort + s.bound.length))

/-- The next message of a connection is handled; an address that is bound is noted. -/
def handle (c : ConnId) (s : Scene) : Scene :=
  let before := s.run.registry.proxies.length
  let s := s.step (.handle c s.binder)
  { s with bound := s.bound ++ (s.run.registry.proxies.drop before).map fun p => (p.name, p.bound) }

/-- The link of a control connection. -/
def grip (c : ConnId) : Grip Scene where
  view s := (s.run.link? c).getD {}
  step e s := s.step (.link c e)
  handle := handle c
  takes s n := s.cast.takes c.number n
  left s := s.cast.hasLeft c.number
  now := (·.run.now)

def settle (s : Scene) : Scene :=
  let s := (s.run.connections.map (·.id)).foldl (fun s c => (grip c).settle s) s
  let s := (s.run.proxies.map (·.owner)).foldl (fun s c => s.step (.wind c)) s
  { s with client := s.client.map (·.settle s.run.now) }

/-- The port that was bound last for a proxy of that name. -/
def portOf (s : Scene) (name : String) : UInt16 :=
  match s.bound.reverse.lookup name with
  | some b => b.port
  | none => 0

def act (s : Scene) (key : Nat) (a : PeerAct) : Scene :=
  let (cast, arrival) := s.cast.act key a
  let s := { s with cast }
  match arrival with
  | none => s
  | some (.bytes bs) => s.step (.link ⟨key⟩ (.receive bs))
  | some _ => s.step (.link ⟨key⟩ .receiveEnd)

/-- The moments at which something is due. -/
def dueTimes (s : Scene) : List Nat :=
  (s.run.connections.filterMap fun c =>
    match c.link.stage with
    | .flushing since => some (since + flushLimit)
    | _ => none) ++ (s.client.map (·.dueTimes)).getD []

/-- The clock moves to a moment, and stops at every one at which something is due. -/
def advanceTo : Nat → Nat → Scene → Scene
  | 0, _, s => s
  | fuel + 1, target, s =>
    match (s.dueTimes.filter fun t => s.run.now < t ∧ t ≤ target).min? with
    | some t => advanceTo fuel target (s.step (.advance (t - s.run.now))).settle
    | none => s.step (.advance (target - s.run.now))

/-- A control connection is told that everything is being shut down. -/
def tellShutDown (s : Scene) (c : ConnId) : Scene := s.step (.link c .shutDown)

/-- The registered proxies by name, and the numbers of the connections that are
authenticated, in order. -/
def overview (s : Scene) : List ProxySnapshot × List Nat :=
  (s.run.snapshot.mergeSort fun a b => decide (a.registration.name ≤ b.registration.name),
    (s.run.registry.authenticated.map (·.number)).mergeSort)

/-- What the admin interface can see. -/
def view (s : Scene) : Admin.View where
  configPath := "tether.toml"
  metrics := s.metrics
  proxies := s.overview.1
  client := s.client.map (·.loop.state)

/-- What a step shows beside what reached the peers. -/
def blank : Report := { news := [] }

def perform? (s : Scene) : Op → Option (Scene × Report)
  | .connect name =>
    if s.inProcess then
      let key := s.run.nextConn
      let s : Scene := { s.step (.connect none) with cast := s.cast.enter name key }
      some ((if s.shutDown then tellShutDown s ⟨key⟩ else s).settle, blank)
    else some (s, { blank with refused := true })
  | .send name bytes =>
    (s.cast.keyOf? name).map fun key => ((s.act key (.send (bytes s.portOf))).settle, blank)
  | .peer name a => (s.cast.keyOf? name).map fun key => ((s.act key a).settle, blank)
  | .dial => some (s, { blank with refused := true })
  | .client options => some ({ s with client := some (.start options s.run.now) }, blank)
  | .snapshot =>
    some (s, { blank with snapshot := some s.overview })
  | .admin method path => some (s, { blank with response := some (Admin.respond s.view method path) })
  | .advance ms => some (advanceTo (ms + 1) (s.run.now + ms) s, blank)
  | .stop =>
    let s : Scene := { s with
      shutDown := true
      client := s.client.map fun c => c.shutDown s.run.now }
    some (((s.run.connections.map (·.id)).foldl tellShutDown s).settle, blank)

def run? : Scene → List Op → Option (List Report × Metrics)
  | s, [] => some ([], s.metrics)
  | s, op :: ops =>
    match s.perform? op with
    | none => none
    | some (s, report) =>
      let (news, cast) := s.cast.takeNews
      let states := (s.client.map (·.seen)).getD []
      let s := { s with cast, client := s.client.map fun c => c.takeSeen.2 }
      (run? s ops).map fun (reports, metrics) =>
        ({ report with news, states, bound := s.bound } :: reports, metrics)

end Scene

end ReverseTunnel.Rehearsal.Server
