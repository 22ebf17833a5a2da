import ReverseTunnel.Client.Loop
import ReverseTunnel.Seal.Gcm

/-!
The rehearsal of a whole client without a network: whatever it dials refuses at
once. Of the states that it publishes at one moment the last one is seen.
-/

namespace ReverseTunnel.Rehearsal

open Client (Loop LoopEvent LoopEffect)

inductive ClientOp where
  /-- A peer is named; without a network there is none. -/
  | peer
  | advance (ms : Nat)
  | stop
  /-- The server's listener comes or goes, out of reach. -/
  | rest
  deriving DecidableEq, Repr

structure ClientReport where
  states : List (Nat × Client.State)
  state : Client.State
  finished : Bool
  deriving DecidableEq, Repr

structure ClientLoop where
  loop : Loop
  /-- The states seen since they were last asked for, with their moments. -/
  seen : List (Nat × Client.State) := []
  deriving DecidableEq, Repr

namespace ClientLoop

def publishes (effects : List LoopEffect) : Bool :=
  effects.any fun
    | .published _ => true
    | _ => false

/-- A step of the loop, and whether it published a state. -/
def step (c : ClientLoop) (now : Nat) (e : LoopEvent) : ClientLoop × Bool :=
  let (loop, effects) := c.loop.step Seal.aes256Gcm now e
  ({ c with loop }, publishes effects)

/-- The client runs until it is idle: if its rest is over it tries to connect, in
vain, and rests again. -/
def settle (c : ClientLoop) (now : Nat) : ClientLoop :=
  let (c, _) := c.step now .wake
  let (c, first) := c.step now .go
  let (c, second) := c.step now (.dialed false)
  if first || second then { c with seen := c.seen ++ [(now, c.loop.state)] } else c

/-- The moment at which something is due. -/
def dueTimes (c : ClientLoop) : List Nat :=
  match c.loop.phase with
  | .resting till => [till]
  | _ => []

def start (o : Client.Options) (now : Nat) : ClientLoop :=
  ({ loop := .start o } : ClientLoop).settle now

def shutDown (c : ClientLoop) (now : Nat) : ClientLoop := ((c.step now .shutDown).1).settle now

def finished (c : ClientLoop) : Bool := c.loop.phase = .stopped

/-- What was seen, and nothing of it any more. -/
def takeSeen (c : ClientLoop) : List (Nat × Client.State) × ClientLoop :=
  (c.seen, { c with seen := [] })

/-- The clock moves from one moment to another, and stops whenever a rest is over. -/
def advance (c : ClientLoop) : Nat → Nat → Nat → ClientLoop
  | 0, _, _ => c
  | fuel + 1, now, target =>
    match (c.dueTimes.filter fun t => now < t ∧ t ≤ target).min? with
    | some t => advance (c.settle t) fuel t target
    | none => c

/-- What a step shows, and the client without it. -/
def report (c : ClientLoop) : ClientReport × ClientLoop :=
  let (states, c) := c.takeSeen
  ({ states, state := c.loop.state, finished := c.finished }, c)

/-- The steps of a script one after another; none if one names a peer. -/
def run? : ClientLoop → Nat → List ClientOp → Option (List ClientReport)
  | _, _, [] => some []
  | c, now, op :: ops =>
    let stepped := match op with
      | .peer => none
      | .advance ms => some (c.advance (ms + 1) now (now + ms), now + ms)
      | .stop => some (c.shutDown now, now)
      | .rest => some (c, now)
    match stepped with
    | none => none
    | some (c, now) =>
      let (r, c) := c.report
      (run? c now ops).map (r :: ·)

/-- A whole script, with a report of the start in front. -/
def rehearse? (o : Client.Options) (ops : List ClientOp) : Option (List ClientReport) :=
  let (r, c) := (start o 0).report
  (run? c 0 ops).map (r :: ·)

end ClientLoop

end ReverseTunnel.Rehearsal
