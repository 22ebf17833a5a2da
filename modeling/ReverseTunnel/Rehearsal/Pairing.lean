import ReverseTunnel.Proxy.Table
import ReverseTunnel.Rehearsal.Cast
import ReverseTunnel.Rehearsal.Turn

/-!
The rehearsal of one session table.

The table's owner is a link of its own, whose far end is the peer `owner` and whose
messages are read and passed over; every inbound connection has a peer too.
-/

namespace ReverseTunnel.Rehearsal.Pairing

open Control Proxy Session

inductive Op where
  /-- A connection comes in and sends; one that is gone has no peer. -/
  | open (name : String) (first : Bytes) (gone : Bool)
  | evict (ttl : Nat)
  | clear
  | ownerClose
  | peer (name : String) (act : PeerAct)
  | advance (ms : Nat)
  deriving Repr

structure Report where
  news : List (String × News)
  /-- How many users wait. -/
  waiting : Nat
  evicted : Option Nat := none
  deriving Repr

structure Scene where
  now : Nat := 0
  ids : IdSource
  table : Table
  owner : Link := {}
  cast : Cast := {}
  metrics : Metrics := {}
  nextKey : Nat := 1

/-- The number of the owner's connection. -/
def ownerKey : Nat := 0

namespace Scene

def start (judgeDelay : Nat) (ids : IdSource) : Scene :=
  { ids, table := { judgeDelay }, cast := Cast.enter {} "owner" ownerKey }

def count (s : Scene) (c : Count) : Scene := { s with metrics := s.metrics.add c }

/-- What a link did to the world around it. -/
def linkEffect (s : Scene) : LinkEffect → Scene
  | .sent bs => { s with cast := s.cast.deliver ownerKey bs }
  | .sentEnd => { s with cast := s.cast.finish ownerKey }
  | .count c => s.count c

/-- The owner's link is idle in its handler. -/
def ownerGrip : Grip Scene where
  view := (·.owner)
  step e s :=
    let (owner, effects) := s.owner.step e
    effects.foldl linkEffect { s with owner }
  handle s :=
    match s.owner.take? with
    | some (_, owner) => { s with owner }
    | none => s
  takes s n := s.cast.takes ownerKey n
  left s := s.cast.hasLeft ownerKey
  now := (·.now)

/-- What the table did to the world around it. -/
def tableEffect (s : Scene) : TableEffect → Scene
  | .relay (.deliver key bs) => { s with cast := s.cast.deliver key bs }
  | .relay (.finish key) => { s with cast := s.cast.finish key }
  | .drop key => { s with cast := s.cast.finish key }
  | .announce session =>
    let (_, owner, effects) := s.owner.emit (.openDataConn session)
    effects.foldl linkEffect { s with owner }
  | .count c => s.count c

def around (s : Scene) : Surroundings :=
  { now := s.now, ids := s.ids, ownerAccepts := s.owner.accepts }

def tableStep (s : Scene) (e : TableEvent) : Scene :=
  let t := s.table.step s.around e
  t.effects.foldl tableEffect { s with table := t.table, ids := t.ids }

/-- How far a relay writes or copies to a side in one go. -/
def reach (s : Scene) (key n : Nat) : Nat := s.cast.takes key n

/-- What is written before a relay copies is written as far as it can be. -/
def writeOpening : Nat → Nat → Scene → Scene
  | 0, _, s => s
  | fuel + 1, key, s =>
    match s.table.pairOf? key with
    | none => s
    | some p =>
      match p.relay.opening with
      | [] => s
      | (side, bs) :: _ =>
        writeOpening fuel key
          (s.tableStep (.relay key (.write (s.reach (p.relay.party side).key bs.length))))

/-- Everything that came from a side is copied, and its end after it. -/
def copyFrom (side : Side) (key : Nat) (s : Scene) : Scene :=
  match s.table.pairOf? key with
  | none => s
  | some p =>
    let n := s.reach (p.relay.party side.other).key (p.relay.party side).socket.unread.length
    (s.tableStep (.relay key (.copy side n))).tableStep (.relay key (.forwardEnd side))

/-- A relay runs until it is idle. -/
def settlePair (s : Scene) (key : Nat) : Scene :=
  let s := writeOpening 4 key s
  let s := copyFrom .back key (copyFrom .front key s)
  s.tableStep (.relay key .close)

/-- A connection that is being judged is looked at, and judged if its time is up. -/
def settleJudged (s : Scene) (key : Nat) : Scene :=
  (s.tableStep (.look key)).tableStep (.timeUp key)

def settle (s : Scene) : Scene :=
  let s := ownerGrip.settle s
  let s := (s.table.judging.map (·.party.key)).foldl settleJudged s
  let s := (s.table.paired.map (·.relay.back.key)).foldl settlePair s
  ownerGrip.settle s

def act (s : Scene) (key : Nat) (a : PeerAct) : Scene :=
  let (cast, arrival) := s.cast.act key a
  let s := { s with cast }
  match arrival with
  | none => s
  | some a =>
    if key = ownerKey then
      match a with
      | .bytes bs => ownerGrip.step (.receive bs) s
      | _ => ownerGrip.step .receiveEnd s
    else s.tableStep (.receive key a)

/-- The moments at which something is due. -/
def dueTimes (s : Scene) : List Nat :=
  s.table.judging.map (·.deadline) ++
    match s.owner.stage with
    | .flushing since => [since + flushLimit]
    | _ => []

/-- The clock moves to a moment, and stops at every one at which something is due. -/
def advanceTo : Nat → Nat → Scene → Scene
  | 0, target, s => { s with now := target }
  | fuel + 1, target, s =>
    match (s.dueTimes.filter fun t => s.now < t ∧ t ≤ target).min? with
    | some t => advanceTo fuel target { s with now := t }.settle
    | none => { s with now := target }

def perform? (s : Scene) : Op → Option (Scene × Option Nat)
  | .open name first gone =>
    let key := s.nextKey
    let s := { s with nextKey := key + 1 }.tableStep (.accept key)
    let s := if gone then s else { s with cast := s.cast.enter name key }
    let s := s.tableStep (.receive key (.bytes first))
    let s := if gone then s.tableStep (.receive key .gone) else s
    some (s.settle, none)
  | .evict ttl =>
    let before := s.table.waiting.length
    let s := s.tableStep (.evict ttl)
    some (s.settle, some (before - s.table.waiting.length))
  | .clear => some ((s.tableStep .clear).settle, none)
  | .ownerClose => some ((ownerGrip.step .close s).settle, none)
  | .peer name a => (s.cast.keyOf? name).map fun key => ((s.act key a).settle, none)
  | .advance ms =>
    -- Every stop judges a connection or ends the owner's link, which is not due yet.
    some (advanceTo (s.dueTimes.length + 2) (s.now + ms) s, none)

def run? : Scene → List Op → Option (List Report × Metrics)
  | s, [] => some ([], s.metrics)
  | s, op :: ops =>
    match s.perform? op with
    | none => none
    | some (s, evicted) =>
      let (news, cast) := s.cast.takeNews
      let s := { s with cast }
      (run? s ops).map fun (reports, metrics) =>
        ({ news, waiting := s.table.waiting.length, evicted } :: reports, metrics)

end Scene

end ReverseTunnel.Rehearsal.Pairing
