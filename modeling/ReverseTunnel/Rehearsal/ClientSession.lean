import ReverseTunnel.Client.Serving
import ReverseTunnel.Rehearsal.Cast
import ReverseTunnel.Rehearsal.Turn
import ReverseTunnel.Seal.Gcm

/-!
The rehearsal of one control connection of a client.

The far end of the connection is the peer `s1`. There is no network: an attempt to
dial back is refused at once.
-/

namespace ReverseTunnel.Rehearsal.ClientSession

open Client (Serving ServingEvent ServingEffect)
open Control

inductive Op where
  | peer (name : String) (act : PeerAct)
  | advance (ms : Nat)
  | stop
  /-- Nothing that this connection would notice. -/
  | rest
  deriving Repr

structure Report where
  news : List (String × News)
  /-- The states published in the step, with their moments. -/
  states : List (Nat × Client.State)
  state : Client.State
  session : Client.Session
  finished : Bool
  deriving Repr

structure Scene where
  options : Client.Options
  serving : Serving
  state : Client.State := .disconnected
  states : List (Nat × Client.State) := []
  now : Nat := 0
  cast : Cast := {}
  /-- How many nonces were used. -/
  nonces : Nat := 0

def linkKey : Nat := 0

namespace Scene

/-- What the connection did to the world around it; the number of an attempt to dial
back that dials is noted. -/
def effect (acc : Scene × List Nat) (e : ServingEffect) : Scene × List Nat :=
  let (s, dials) := acc
  match e with
  | .link (.sent bs) => ({ s with cast := s.cast.deliver linkKey bs }, dials)
  | .link .sentEnd => ({ s with cast := s.cast.finish linkKey }, dials)
  | .link (.count _) => acc
  | .publish state =>
    (if s.state = state then s else { s with state, states := s.states ++ [(s.now, state)] }, dials)
  | .dial attempt (.dial _) => (s, dials ++ [attempt])
  | .dial _ _ => acc

/-- Takes over what a step led to. -/
def absorb (s : Scene) (stepped : Serving × List ServingEffect) : Scene × List Nat :=
  stepped.2.foldl effect ({ s with serving := stepped.1 }, [])

def step (s : Scene) (e : ServingEvent) : Scene :=
  let run (s : Scene) (e : ServingEvent) := s.absorb (s.serving.step s.options Seal.aes256Gcm s.now e)
  let (s, dials) := run s e
  dials.foldl (fun s attempt => (run s (.dial attempt .refused)).1) s

def grip : Grip Scene where
  view := (·.serving.link)
  step e s := s.step (.link e)
  handle s := { s with nonces := s.nonces + 1 }.step (.handle (Bytes.be 12 s.nonces))
  takes s n := s.cast.takes linkKey n
  left s := s.cast.hasLeft linkKey
  now := (·.now)

/-- The heartbeats that are due are sent. -/
def beats : Nat → Scene → Scene
  | 0, s => s
  | fuel + 1, s => beats fuel (s.step .beat)

def settle (s : Scene) : Scene := grip.settle (beats s.serving.beats.length s)

/-- The scene after the connection was made. -/
def start (options : Client.Options) : Scene :=
  let (serving, effects) := Serving.start options 0
  let s : Scene := { options, serving, cast := Cast.enter {} "s1" linkKey }
  (s.absorb (serving, effects)).1.settle

def act (s : Scene) (key : Nat) (a : PeerAct) : Scene :=
  let (cast, arrival) := s.cast.act key a
  let s := { s with cast }
  match arrival with
  | none => s
  | some (.bytes bs) => s.step (.link (.receive bs))
  | some _ => s.step (.link .receiveEnd)

/-- The moments at which something is due. -/
def dueTimes (s : Scene) : List Nat :=
  s.serving.beats ++
    match s.serving.link.stage with
    | .flushing since => [since + flushLimit]
    | _ => []

/-- The clock moves to a moment, and stops at every one at which something is due. -/
def advanceTo : Nat → Nat → Scene → Scene
  | 0, target, s => { s with now := target }
  | fuel + 1, target, s =>
    match (s.dueTimes.filter fun t => s.now < t ∧ t ≤ target).min? with
    | some t => advanceTo fuel target { s with now := t }.settle
    | none => { s with now := target }

def perform? (s : Scene) : Op → Option Scene
  | .peer name a => (s.cast.keyOf? name).map fun key => (s.act key a).settle
  | .advance ms =>
    -- Every stop sends a heartbeat that was due or ends the link, which is not due yet.
    some (advanceTo (s.dueTimes.length + 2) (s.now + ms) s)
  | .stop => some (s.step (.link .shutDown)).settle
  | .rest => some s

/-- What a step shows, and the scene without it. -/
def report (s : Scene) : Report × Scene :=
  let (news, cast) := s.cast.takeNews
  ({ news
     states := s.states
     state := s.state
     session := s.serving.session
     finished := s.serving.link.stage = .finished },
    { s with cast, states := [] })

def run? : Scene → List Op → Option (List Report)
  | _, [] => some []
  | s, op :: ops =>
    match s.perform? op with
    | none => none
    | some s =>
      let (r, s) := s.report
      (run? s ops).map (r :: ·)

/-- A whole script, with a report of the start in front. -/
def rehearse? (options : Client.Options) (ops : List Op) : Option (List Report) :=
  let (r, s) := (start options).report
  (run? s ops).map (r :: ·)

end Scene

end ReverseTunnel.Rehearsal.ClientSession
