import ReverseTunnel.Metrics
import ReverseTunnel.Proxy.Judge
import ReverseTunnel.Relay
import ReverseTunnel.Session.Id

/-!
The session table of a data proxy.

Every inbound connection is judged first. A user is parked under a fresh session
id, which is announced to the client that owns the proxy; a data connection takes
the user that is parked under its id out of the table, and the two are relayed. A
data connection whose id has no user, a user whose announcement is refused and a
user that has waited too long are dropped.

A step is told what it needs of the world around the table, in `Surroundings`, and
says in its effects what it does to that world.
-/

namespace ReverseTunnel.Proxy

open Session

structure Judged where
  party : Party
  /-- What was read from it; it shows nothing yet. -/
  buffer : Bytes
  deadline : Nat
  deriving DecidableEq, Repr

structure Waiting where
  party : Party
  session : UInt32
  /-- What was read from it. -/
  buffered : Bytes
  since : Nat
  deriving DecidableEq, Repr

/-- A user and its data connection, the user in front. -/
structure Paired where
  session : UInt32
  relay : Relay
  /-- How much was read from the user while it was judged. -/
  buffered : Nat
  /-- How much was read behind the handshake of the data connection. -/
  rest : Nat
  deriving DecidableEq, Repr

/-- The connections of a data proxy. -/
structure Table where
  judgeDelay : Nat
  judging : List Judged := []
  waiting : List Waiting := []
  paired : List Paired := []
  deriving DecidableEq, Repr

/-- The world around a table. -/
structure Surroundings where
  now : Nat
  /-- Where session ids come from; several tables may share it. -/
  ids : IdSource
  /-- Whether the owner's link would accept an announcement. -/
  ownerAccepts : Bool
  deriving DecidableEq, Repr

/-- What a step of a table does to the world around it. -/
inductive TableEffect where
  | relay (e : RelayEffect)
  | drop (key : Nat)
  /-- A session is announced to the owner, who may refuse it. -/
  | announce (session : UInt32)
  | count (c : Count)
  deriving DecidableEq, Repr

/-- A table, the source of session ids, and what was done on the way to them. -/
structure TableStep where
  table : Table
  ids : IdSource
  effects : List TableEffect := []
  deriving DecidableEq, Repr

namespace Table

def accept (t : Table) (now key : Nat) : Table :=
  { t with judging := t.judging ++ [⟨⟨key, {}⟩, [], now + t.judgeDelay⟩] }

def receive (t : Table) (key : Nat) (a : Arrival) : Table :=
  { t with
    judging := t.judging.map fun j => { j with party := j.party.receive key a }
    waiting := t.waiting.map fun w => { w with party := w.party.receive key a }
    paired := t.paired.map fun p => { p with relay := p.relay.receive key a } }

def others (session : UInt32) (ws : List Waiting) : List Waiting :=
  ws.filter (·.session ≠ session)

/-- Parks a user under a fresh id and announces it; a user that waited under the
same id is dropped, and so is the new one if the announcement is refused. -/
def park (t : Table) (around : Surroundings) (user : Party) (buffered : Bytes) : TableStep :=
  -- the id is used up even if the announcement is refused
  let (session, ids) := around.ids.draw
  let displaced := (t.waiting.filter (·.session = session)).map fun w => TableEffect.drop w.party.key
  let counted := TableEffect.count ⟨.userConnections, 1⟩
  if around.ownerAccepts then
    { table := { t with
        waiting := others session t.waiting ++ [⟨user, session, buffered, around.now⟩] }
      ids
      effects := counted :: displaced ++ [.announce session] }
  else
    { table := { t with waiting := others session t.waiting }
      ids
      effects := counted :: displaced ++ [.announce session, .drop user.key] }

/-- The relay of a user and its data connection: the data connection gets the
handshake back and what was read from the user, the user what came behind the
handshake. -/
def join (w : Waiting) (data : Party) (rest : Bytes) : Paired where
  session := w.session
  relay := {
    front := w.party
    back := data
    opening := [(.back, Handshake.encode w.session), (.back, w.buffered), (.front, rest)] }
  buffered := w.buffered.length
  rest := rest.length

/-- Pairs a data connection with the user that waits under its id, or drops it. -/
def pair (t : Table) (around : Surroundings) (data : Party) (session : UInt32) (rest : Bytes) :
    TableStep :=
  match t.waiting.find? (·.session = session) with
  | none =>
    -- whoever waits under another id goes on waiting
    { table := t, ids := around.ids
      effects := [.count ⟨.dataConnections, 1⟩, .count ⟨.staleDataConnections, 1⟩,
        .drop data.key] }
  | some w =>
    { table := { t with
        waiting := others session t.waiting
        paired := t.paired ++ [join w data rest] }
      ids := around.ids
      effects := [.count ⟨.dataConnections, 1⟩, .count ⟨.sessionsPaired, 1⟩] }

/-- Acts on the judgement of a connection that is judged no longer. -/
def settle (t : Table) (around : Surroundings) (p : Party) : Judgement → TableStep
  | .user buffered => t.park around p buffered
  | .data session rest => t.pair around p session rest
  | .closed => { table := t, ids := around.ids, effects := [.drop p.key] }

/-- The connections other than that of a key. -/
def dismiss (key : Nat) (js : List Judged) : List Judged := js.filter (·.party.key ≠ key)

/-- Looks at what a connection that is being judged has sent. -/
def look (t : Table) (around : Surroundings) (key : Nat) : TableStep :=
  match t.judging.find? (·.party.key = key) with
  | none => { table := t, ids := around.ids }
  | some j =>
    if j.party.socket.broken then
      { table := { t with judging := dismiss key t.judging }, ids := around.ids
        effects := [.drop key] }
    else
      match Proxy.look j.buffer j.party.socket with
      | (some judgement, _, s) =>
        { t with judging := dismiss key t.judging }.settle around { j.party with socket := s }
          judgement
      | (none, seen, s) =>
        { table := { t with
            judging := t.judging.map fun k =>
              if k.party.key = key then { k with party := { k.party with socket := s }, buffer := seen }
              else k }
          ids := around.ids }

/-- The time of a connection that is being judged is up. -/
def timeUp (t : Table) (around : Surroundings) (key : Nat) : TableStep :=
  match t.judging.find? (·.party.key = key) with
  | none => { table := t, ids := around.ids }
  | some j =>
    if j.deadline ≤ around.now then
      -- too little came for a handshake, so it is a user
      { t with judging := dismiss key t.judging }.settle around j.party (.user j.buffer)
    else { table := t, ids := around.ids }

/-- Drops the users that have waited at least so long. -/
def evict (t : Table) (around : Surroundings) (ttl : Nat) : TableStep :=
  let expired := t.waiting.filter fun w => w.since + ttl ≤ around.now
  { table := { t with waiting := t.waiting.filter fun w => around.now < w.since + ttl }
    ids := around.ids
    effects := (if expired.isEmpty then [] else [.count ⟨.unboundEvictions, expired.length⟩]) ++
      expired.map fun w => .drop w.party.key }

def clear (t : Table) (around : Surroundings) : TableStep :=
  { table := { t with waiting := [] }
    ids := around.ids
    effects := t.waiting.map fun w => .drop w.party.key }

/-- The pair that a data connection belongs to. -/
def pairOf? (t : Table) (key : Nat) : Option Paired := t.paired.find? (·.relay.back.key = key)

/-- The pairs other than that of a data connection. -/
def part (key : Nat) (ps : List Paired) : List Paired := ps.filter (·.relay.back.key ≠ key)

/-- Takes a step of the relay of a data connection. -/
def relay (t : Table) (around : Surroundings) (key : Nat) (e : RelayEvent) : TableStep :=
  match t.pairOf? key with
  | none => { table := t, ids := around.ids }
  | some p =>
    let gone : List TableEffect := [.drop p.relay.front.key, .drop p.relay.back.key]
    match p.relay.step e with
    | .goesOn r effects =>
      { table := { t with
          paired := t.paired.map fun q => if q.relay.back.key = key then { q with relay := r } else q }
        ids := around.ids
        effects := effects.map .relay }
    -- what was read while judging was conveyed by the opening, and counts as well
    | .closes up down =>
      { table := { t with paired := part key t.paired }
        ids := around.ids
        effects := [.count ⟨.relayIngressBytes, up + p.buffered⟩,
          .count ⟨.relayEgressBytes, down + p.rest⟩] ++ gone }
    | .aborts =>
      { table := { t with paired := part key t.paired }, ids := around.ids, effects := gone }

end Table

/-- What can happen to a table. -/
inductive TableEvent where
  | accept (key : Nat)
  | receive (key : Nat) (a : Arrival)
  | look (key : Nat)
  | timeUp (key : Nat)
  | relay (key : Nat) (e : RelayEvent)
  | evict (ttl : Nat)
  | clear
  deriving DecidableEq, Repr

def Table.step (t : Table) (around : Surroundings) : TableEvent → TableStep
  | .accept key => { table := t.accept around.now key, ids := around.ids }
  | .receive key a => { table := t.receive key a, ids := around.ids }
  | .look key => t.look around key
  | .timeUp key => t.timeUp around key
  | .relay key e => t.relay around key e
  | .evict ttl => t.evict around ttl
  | .clear => t.clear around

end ReverseTunnel.Proxy
